import Mathlib.Data.List.Perm.Subperm
import BobbyBotique.Foundation.Entries
import BobbyBotique.Router.Answer

/-!
# The reserve of a race

At most one reserve key is prepared at a time, an attempt is left for it, and a race that
waits for its queue has an entry there or a task that is not over.
-/

namespace BobbyBotique.Router

open Entries

variable {T : Type}

/-- A call was made, or the task is over. -/
def KeyTask.Begun (task : KeyTask T) : Prop := task.stage = .calling ∨ task.stage = .ended

namespace Serial

/-- What holds while keys race. -/
structure Racing (serial : Serial T) : Prop where
  waiting : serial.reserve = .waiting → 0 < serial.remaining
  armed : serial.reserve ≠ .preparing → ∀ (index : Nat) (task : KeyTask T),
    serial.tasks[index]? = some task → task.stage ≠ .preparing
  limit : serial.keys.length + serial.remaining = serial.dispatchLimit
  uncancelled : ∀ (index : Nat) (task : KeyTask T), serial.tasks[index]? = some task →
    task.cancelled = false
  /-- The end of a task is counted, or it waits in the queue. -/
  marked : ∀ (index : Nat) (task : KeyTask T), serial.tasks[index]? = some task →
    task.stage = .ended → index ∈ serial.finished ∨ (index, Item.done) ∈ serial.queue

structure Budgeted (serial : Serial T) : Prop where
  single : ∀ (first second : Nat) (one other : KeyTask T), serial.tasks[first]? = some one →
    serial.tasks[second]? = some other → one.stage = .preparing → other.stage = .preparing →
    first = second
  funded : ∀ (index : Nat) (task : KeyTask T), serial.tasks[index]? = some task →
    task.stage = .preparing → 0 < serial.remaining
  race : serial.stage = .racing → serial.Racing

/-- No task is prepared anew, and what has begun stays so. -/
structure Advances (before after : Serial T) : Prop where
  remaining : after.remaining = before.remaining
  begun : ∀ (index : Nat) (old : KeyTask T), before.tasks[index]? = some old → old.Begun →
    ∃ new : KeyTask T, after.tasks[index]? = some new ∧ new.Begun
  preparing : ∀ (index : Nat) (new : KeyTask T), after.tasks[index]? = some new →
    new.stage = .preparing →
    ∃ old : KeyTask T, before.tasks[index]? = some old ∧ old.stage = .preparing

variable {serial before after : Serial T} {route : Route}

theorem Advances.same (remaining : after.remaining = before.remaining)
    (tasks : after.tasks = before.tasks) : Advances before after where
  remaining := remaining
  begun _ old found begun := ⟨old, tasks ▸ found, begun⟩
  preparing _ new found prepares := ⟨new, tasks ▸ found, prepares⟩

theorem Advances.cancel (kept : Option Nat)
    (remaining : after.remaining = before.remaining)
    (tasks : after.tasks = cancelTasks kept before.tasks) : Advances before after where
  remaining := remaining
  begun index old found begun := by
    refine ⟨_, by rw [tasks, getElem?_cancelTasks, found]; rfl, ?_⟩
    split <;> exact begun
  preparing index new found prepares := by
    obtain ⟨old, stored, _, stage, _⟩ := cancelTasks_spec (tasks ▸ found)
    exact ⟨old, stored, stage ▸ prepares⟩

/-- One task goes on. -/
theorem Advances.change {index : Nat} {old new : KeyTask T}
    (found : before.tasks[index]? = some old) (remaining : after.remaining = before.remaining)
    (tasks : after.tasks = before.tasks.set index new) (begun : old.Begun → new.Begun)
    (prepares : new.stage ≠ .preparing) : Advances before after where
  remaining := remaining
  begun other task stored still := by
    rw [tasks, List.getElem?_set]
    obtain ⟨bound, _⟩ := List.getElem?_eq_some_iff.mp found
    by_cases same : index = other
    · subst same
      rw [if_pos rfl, if_pos bound]
      obtain rfl := Option.some.inj (found.symm.trans stored)
      exact ⟨new, rfl, begun still⟩
    · rw [if_neg same]
      exact ⟨task, stored, still⟩
  preparing other task stored stage := by
    rw [tasks] at stored
    rcases getElem?_set_cases stored with ⟨_, rfl⟩ | ⟨_, kept⟩
    · exact absurd stage prepares
    · exact ⟨task, kept, stage⟩

theorem Budgeted.advance (budget : before.Budgeted) (advances : Advances before after)
    (race : after.stage = .racing → after.Racing) : after.Budgeted where
  single first second one other read stored prepares also := by
    obtain ⟨_, old, still⟩ := advances.preparing first one read prepares
    obtain ⟨_, older, too⟩ := advances.preparing second other stored also
    exact budget.single first second _ _ old older still too
  funded index task read prepares := by
    obtain ⟨_, old, still⟩ := advances.preparing index task read prepares
    exact advances.remaining.symm ▸ budget.funded index _ old still
  race := race

/-! ## A reserve is started -/

/-- A reserve is started while none is prepared and an attempt is left. -/
theorem startReserve_cases (route : Route) (racing : serial.Racing) :
    serial.startReserve route = serial ∨ (serial.reserve ≠ .preparing ∧ 0 < serial.remaining ∧
        serial.startReserve route = { serial with
          reserve := .preparing
          tasks := serial.tasks ++ [⟨.preparing, false, [], none⟩] }) := by
  unfold Serial.startReserve
  dsimp only
  split
  · rename_i opens
    simp only [Bool.and_eq_true, decide_eq_true_eq] at opens
    obtain ⟨⟨⟨_, disabled⟩, short⟩, _⟩ := opens
    have limit := racing.limit
    rw [if_pos rfl]
    exact .inr ⟨by rw [disabled]; exact ReservePhase.noConfusion, by omega, rfl⟩
  · split
    · rename_i waits
      exact .inr ⟨by rw [waits]; exact ReservePhase.noConfusion, racing.waiting waits, rfl⟩
    · exact .inl rfl

theorem Budgeted.startReserve (budget : serial.Budgeted) (stage : serial.stage = .racing) :
    (serial.startReserve route).Budgeted := by
  have racing := budget.race stage
  rcases startReserve_cases route racing with same | ⟨armed, left, same⟩
  · rwa [same]
  rw [same]
  have idle := racing.armed armed
  refine ⟨?_, fun _ _ _ _ => left, fun _ => ⟨?_, ?_, racing.limit, ?_, ?_⟩⟩
  · intro first second one other read stored prepares also
    rcases getElem?_concat_cases read with ⟨_, old⟩ | ⟨place, _⟩
    · exact absurd prepares (idle first one old)
    · rcases getElem?_concat_cases stored with ⟨_, old⟩ | ⟨too, _⟩
      · exact absurd also (idle second other old)
      · exact place.trans too.symm
  · exact fun absurd => ReservePhase.noConfusion absurd
  · exact fun absurd' => absurd rfl absurd'
  · intro index task read
    rcases getElem?_concat_cases read with ⟨_, old⟩ | ⟨_, rfl⟩
    · exact racing.uncancelled index task old
    · rfl
  · intro index task read ended
    rcases getElem?_concat_cases read with ⟨_, old⟩ | ⟨_, rfl⟩
    · exact racing.marked index task old ended
    · cases ended

/-! ## The steps of the tasks -/

/-- What has begun stays so, and no attempt is taken. -/
structure Goes (before after : Serial T) : Prop where
  remaining : after.remaining = before.remaining
  begun : ∀ (index : Nat) (old : KeyTask T), before.tasks[index]? = some old → old.Begun →
    ∃ new : KeyTask T, after.tasks[index]? = some new ∧ new.Begun

theorem Advances.goes (advances : Advances before after) : Goes before after :=
  ⟨advances.remaining, advances.begun⟩

theorem Goes.refl (serial : Serial T) : Goes serial serial :=
  ⟨rfl, fun _ old found begun => ⟨old, found, begun⟩⟩

theorem goes_startReserve (route : Route) (racing : serial.Racing) :
    Goes serial (serial.startReserve route) := by
  rcases startReserve_cases route racing with same | ⟨_, _, same⟩
  · rw [same]
    exact .refl serial
  · rw [same]
    refine ⟨rfl, fun index old found begun => ⟨old, ?_, begun⟩⟩
    obtain ⟨bound, _⟩ := List.getElem?_eq_some_iff.mp found
    exact (List.getElem?_append_left bound).trans found

/-- A step of a task in a race keeps the race. -/
theorem Racing.change (racing : before.Racing) {index : Nat} {old new : KeyTask T}
    {more : List (Nat × Item T)} (found : before.tasks[index]? = some old)
    (tasks : after.tasks = before.tasks.set index new)
    (queue : after.queue = before.queue ++ more)
    (kept : after.finished = before.finished ∧ after.keys = before.keys ∧
      after.remaining = before.remaining ∧ after.dispatchLimit = before.dispatchLimit)
    (prepares : new.stage ≠ .preparing) (cancelled : new.cancelled = old.cancelled)
    (phase : after.reserve = before.reserve ∨ (old.stage = .preparing ∧ before.Budgeted ∧
      (after.reserve = .waiting → 0 < before.remaining)))
    (ended : new.stage = .ended → old.stage = .ended ∨ (index, Item.done) ∈ more) :
    after.Racing where
  waiting waits := by
    rw [kept.2.2.1]
    rcases phase with same | ⟨_, _, funds⟩
    · exact racing.waiting (same ▸ waits)
    · exact funds waits
  armed armed other task read prepared := by
    rw [tasks] at read
    rcases getElem?_set_cases read with ⟨_, rfl⟩ | ⟨ne, stored⟩
    · exact prepares prepared
    · rcases phase with same | ⟨prepared', budget, _⟩
      · exact racing.armed (same ▸ armed) other task stored prepared
      · exact ne (budget.single other index task old stored found prepared prepared')
  limit := by
    rw [kept.2.1, kept.2.2.1, kept.2.2.2]
    exact racing.limit
  uncancelled other task read := by
    rw [tasks] at read
    rcases getElem?_set_cases read with ⟨_, rfl⟩ | ⟨_, stored⟩
    · exact cancelled.trans (racing.uncancelled index old found)
    · exact racing.uncancelled other task stored
  marked other task read past := by
    rw [tasks] at read
    rw [kept.1, queue]
    rcases getElem?_set_cases read with ⟨same, rfl⟩ | ⟨_, stored⟩
    · rcases ended past with already | waits
      · rw [same]
        exact (racing.marked index old found already).imp_right (List.mem_append_left _)
      · rw [same]
        exact .inr (List.mem_append_right _ waits)
    · exact (racing.marked other task stored past).imp_right (List.mem_append_left _)

/-- A call ends, with its end behind what it puts last. -/
theorem Budgeted.finish (budget : serial.Budgeted) {index : Nat} {task : KeyTask T}
    (found : serial.tasks[index]? = some task) (item : Item T) :
    (serial.finish index task item).Budgeted ∧ Goes serial (serial.finish index task item) := by
  have advances : Advances serial (serial.finish index task item) :=
    .change found rfl rfl (fun _ => .inr rfl) TaskStage.noConfusion
  refine ⟨budget.advance advances fun stage => ?_, advances.goes⟩
  refine (budget.race stage).change found rfl
    (List.append_assoc serial.queue [(index, item)] [(index, .done)]) ⟨rfl, rfl, rfl, rfl⟩
    TaskStage.noConfusion rfl (.inl rfl) fun _ => .inr (by simp)

/-- What a task does that takes no attempt. -/
theorem Budgeted.task (budget : serial.Budgeted) {index : Nat} {task : KeyTask T}
    (found : serial.tasks[index]? = some task) {label : SerialLabel T}
    (plain : ∀ other, label ≠ .prepared other true) :
    (serial.taskStep route index task label).Budgeted ∧
      Goes serial (serial.taskStep route index task label) := by
  have same : serial.Budgeted ∧ Goes serial serial := ⟨budget, .refl serial⟩
  cases label with
  | run other =>
    dsimp only [taskStep]
    split
    · split
      · rename_i dropped
        have advances : Advances serial (serial.change index { task with stage := .ended }) :=
          .change found rfl rfl (fun _ => .inr rfl) TaskStage.noConfusion
        refine ⟨budget.advance advances fun stage => ?_, advances.goes⟩
        rw [(budget.race stage).uncancelled index task found] at dropped
        cases dropped
      · have advances : Advances serial
            { serial.change index { task with stage := .calling } with
              dispatched := serial.dispatched + 1 } :=
          .change found rfl rfl (fun _ => .inl rfl) TaskStage.noConfusion
        refine ⟨budget.advance advances fun stage => ?_, advances.goes⟩
        exact (budget.race stage).change found rfl (List.append_nil _).symm
          ⟨rfl, rfl, rfl, rfl⟩ TaskStage.noConfusion rfl (.inl rfl) TaskStage.noConfusion
    · exact same
  | prepared other able =>
    cases able with
    | true => exact absurd rfl (plain other)
    | false =>
      dsimp only [taskStep]
      split
      · rename_i prepares
        rw [Bool.false_and, if_neg Bool.false_ne_true]
        have advances : Advances serial
            (({ serial with reserve := serial.rearmed route .exhausted }.change index
              { task with stage := .ended }).put index .done) :=
          .change found rfl rfl (fun _ => .inr rfl) TaskStage.noConfusion
        refine ⟨budget.advance advances fun stage => ?_, advances.goes⟩
        refine (budget.race stage).change found rfl rfl ⟨rfl, rfl, rfl, rfl⟩
          TaskStage.noConfusion rfl (.inr ⟨prepares, budget, ?_⟩) fun _ => .inr (by simp)
        intro _
        exact budget.funded index task found prepares
      · exact same
  | emit other event =>
    dsimp only [taskStep]
    split
    · rename_i calls
      split
      · exact budget.finish found _
      · rename_i delta _
        have advances : Advances serial ((serial.change index
            { task with emitted := task.emitted ++ [delta] }).put index
            (.event (.text delta))) :=
          .change found rfl rfl id (by rw [calls]; exact TaskStage.noConfusion)
        refine ⟨budget.advance advances fun stage => ?_, advances.goes⟩
        exact (budget.race stage).change found rfl rfl ⟨rfl, rfl, rfl, rfl⟩
          (by rw [calls]; exact TaskStage.noConfusion) rfl (.inl rfl) .inl
      · rename_i event _ _ _ _
        have advances : Advances serial (serial.change index
            { task with terminal := some event }) :=
          .change found rfl rfl id (by rw [calls]; exact TaskStage.noConfusion)
        refine ⟨budget.advance advances fun stage => ?_, advances.goes⟩
        exact (budget.race stage).change found rfl (List.append_nil _).symm
          ⟨rfl, rfl, rfl, rfl⟩ (by rw [calls]; exact TaskStage.noConfusion) rfl (.inl rfl) .inl
    · exact same
  | close other =>
    dsimp only [taskStep]
    split
    · split
      · exact budget.finish found _
      · exact budget.finish found _
    · exact same
  | fail other =>
    dsimp only [taskStep]
    split
    · exact budget.finish found _
    · exact same
  | abandon other ran =>
    dsimp only [taskStep]
    split
    · rename_i dropped
      have uncancelled : serial.stage ≠ .racing := by
        intro stage
        rw [(budget.race stage).uncancelled index task found] at dropped
        cases dropped.1
      split
      · have advances : Advances serial
            ((serial.change index { task with stage := .ended }).put index .done) :=
          .change found rfl rfl (fun _ => .inr rfl) TaskStage.noConfusion
        exact ⟨budget.advance advances fun stage => absurd stage uncancelled, advances.goes⟩
      · have advances : Advances serial (serial.change index { task with stage := .ended }) :=
          .change found rfl rfl (fun _ => .inr rfl) TaskStage.noConfusion
        exact ⟨budget.advance advances fun stage => absurd stage uncancelled, advances.goes⟩
    · exact same
  | _ => exact same

/-! ## The steps of the owner -/

theorem Budgeted.same (budget : before.Budgeted) (remaining : after.remaining = before.remaining)
    (tasks : after.tasks = before.tasks) (race : after.stage = .racing → after.Racing) :
    after.Budgeted ∧ Goes before after :=
  have advances := Advances.same remaining tasks
  ⟨budget.advance advances race, advances.goes⟩

/-- The generator leaves: no race goes on. -/
theorem Budgeted.leave (budget : before.Budgeted) (remaining : after.remaining = before.remaining)
    (tasks : after.tasks = before.tasks) {stage : Stage} (other : stage ≠ .racing) :
    (after.leave stage).Budgeted ∧ Goes before (after.leave stage) := by
  have advances : Advances before (after.leave stage) :=
    .cancel none remaining (congrArg (cancelTasks none) tasks)
  exact ⟨budget.advance advances fun same => absurd same other, advances.goes⟩

theorem Budgeted.settle (budget : before.Budgeted) (remaining : after.remaining = before.remaining)
    (tasks : after.tasks = before.tasks) (timedOut : Option StreamFailed) :
    (after.settle timedOut).Budgeted ∧ Goes before (after.settle timedOut) := by
  unfold Serial.settle
  split
  · exact @Budgeted.leave T before (after.say _) budget remaining tasks .returned nofun
  · dsimp only
    refine budget.leave ?_ ?_ nofun
    · exact remaining
    · exact tasks

/-- An entry was taken, and its end is counted if it is one. -/
theorem Racing.taken (racing : before.Racing) {index : Nat} {item : Item T}
    {rest : List (Nat × Item T)} (queue : before.queue = (index, item) :: rest)
    (tasks : after.tasks = before.tasks) (left : after.queue = rest)
    (counted : ∀ other ∈ before.finished, other ∈ after.finished)
    (marks : item = .done → index ∈ after.finished)
    (kept : after.reserve = before.reserve ∧ after.keys = before.keys ∧
      after.remaining = before.remaining ∧ after.dispatchLimit = before.dispatchLimit) :
    after.Racing where
  waiting waits := kept.2.2.1.symm ▸ racing.waiting (kept.1 ▸ waits)
  armed armed other task read := racing.armed (kept.1 ▸ armed) other task (tasks ▸ read)
  limit := by
    rw [kept.2.1, kept.2.2.1, kept.2.2.2]
    exact racing.limit
  uncancelled other task read := racing.uncancelled other task (tasks ▸ read)
  marked other task read past := by
    rw [left]
    rcases racing.marked other task (tasks ▸ read) past with old | waits
    · exact .inl (counted other old)
    · rw [queue] at waits
      rcases List.mem_cons.mp waits with same | later
      · obtain ⟨rfl, rfl⟩ := Prod.mk.inj same
        exact .inl (marks rfl)
      · exact .inr later

theorem Budgeted.reserves (budget : before.Budgeted)
    (remaining : after.remaining = before.remaining) (tasks : after.tasks = before.tasks)
    (racing : after.Racing) (stays : after.stage = .racing) (route : Route) :
    (after.startReserve route).Budgeted ∧ Goes before (after.startReserve route) := by
  have kept := budget.same remaining tasks fun _ => racing
  have further := goes_startReserve route racing
  exact ⟨kept.1.startReserve stays, further.remaining.trans kept.2.remaining,
    fun index old found begun => by
      obtain ⟨middle, stored, still⟩ := kept.2.begun index old found begun
      exact further.begun index middle stored still⟩

/-- An entry taken while keys race. -/
theorem Budgeted.consume (budget : serial.Budgeted) (stage : serial.stage = .racing) {index : Nat}
    {item : Item T} {rest : List (Nat × Item T)} (queue : serial.queue = (index, item) :: rest) :
    ({ serial with queue := rest }.consume route index item).Budgeted ∧
      Goes serial ({ serial with queue := rest }.consume route index item) := by
  have racing := budget.race stage
  cases item with
  | done =>
    refine budget.same rfl rfl fun _ => ?_
    exact racing.taken queue rfl rfl (fun _ member => List.mem_append_left _ member)
      (fun _ => List.mem_append_right _ List.mem_cons_self) ⟨rfl, rfl, rfl, rfl⟩
  | error =>
    exact @Budgeted.leave T serial { serial with queue := rest } budget rfl rfl .raised nofun
  | wake =>
    have taken : Racing { serial with queue := rest } :=
      racing.taken queue rfl rfl (fun _ member => member) nofun ⟨rfl, rfl, rfl, rfl⟩
    dsimp only [Serial.consume]
    split
    · refine budget.reserves ?_ ?_ taken stage route <;> rfl
    · exact budget.same rfl rfl fun _ => taken
  | event event =>
    have noted : Racing { serial with
        queue := rest, terminals := serial.terminals ++ [(index, event)] } :=
      racing.taken queue rfl rfl (fun _ member => member) nofun ⟨rfl, rfl, rfl, rfl⟩
    have next : ∀ after, after = (if route.rolling then
        ({ serial with queue := rest, terminals := serial.terminals ++ [(index, event)]
           } : Serial T).startReserve route
        else { serial with
          queue := rest, terminals := serial.terminals ++ [(index, event)] }) →
        after.Budgeted ∧ Goes serial after := by
      rintro after rfl
      split
      · refine budget.reserves ?_ ?_ noted stage route <;> rfl
      · exact budget.same rfl rfl fun _ => noted
    cases event with
    | text delta =>
      have advances : Advances serial
          ({ serial with queue := rest }.consume route index (.event (.text delta))) :=
        .cancel (some index) rfl rfl
      exact ⟨budget.advance advances fun absurd => Stage.noConfusion absurd, advances.goes⟩
    | completed | deferred => exact next _ rfl
    | failed failure =>
      dsimp only [Serial.consume]
      split
      · exact next _ rfl
      · exact @Budgeted.leave T serial { serial with queue := rest, last := _ } budget rfl rfl
          .routing nofun
      · exact @Budgeted.leave T serial (Serial.say { serial with queue := rest } _) budget rfl
          rfl .returned nofun

/-- An entry taken behind the first text. -/
theorem Budgeted.forward (budget : serial.Budgeted) {winner : Nat}
    (stage : serial.stage = .won winner) {rest : List (Nat × Item T)} (item : Item T) :
    ({ serial with queue := rest }.forward item).Budgeted ∧
      Goes serial ({ serial with queue := rest }.forward item) := by
  have later : ∀ {after : Serial T}, after.stage = .won winner → after.stage = .racing →
      after.Racing := fun won racing => Stage.noConfusion (won.symm.trans racing)
  unfold Serial.forward
  split
  · exact budget.same rfl rfl (later stage)
  · split
    · exact @Budgeted.leave T serial (Serial.say { serial with queue := rest } _) budget rfl rfl
        .returned nofun
    · exact @Budgeted.leave T serial { serial with queue := rest } budget rfl rfl .raised nofun
  · exact @Budgeted.leave T serial { serial with queue := rest } budget rfl rfl .raised nofun

theorem Budgeted.take (budget : serial.Budgeted) :
    (serial.take route).Budgeted ∧ Goes serial (serial.take route) := by
  have same : serial.Budgeted ∧ Goes serial serial := ⟨budget, .refl serial⟩
  unfold Serial.take
  split
  · rename_i stage
    split
    · split
      · exact same
      · rename_i queue
        exact budget.consume stage queue
    · exact budget.settle rfl rfl none
  · rename_i winner stage
    split
    · exact same
    · split
      · exact budget.forward stage _
      · refine budget.same rfl rfl fun racing => ?_
        exact Stage.noConfusion (stage.symm.trans racing)
  · exact same

/-- The steps that take no attempt. -/
def plainLabel : SerialLabel T → Bool
  | .nextModel | .race _ _ | .prepared _ true => false
  | _ => true

/-- A step that takes no attempt keeps the budget. -/
theorem Budgeted.step (budget : serial.Budgeted) {label : SerialLabel T}
    (plain : plainLabel label = true) :
    (serial.step route label).Budgeted ∧ Goes serial (serial.step route label) := by
  have same : serial.Budgeted ∧ Goes serial serial := ⟨budget, .refl serial⟩
  cases label with
  | admission allowed =>
    dsimp only [Serial.step]
    split
    · rename_i fresh
      split
      · exact budget.same rfl rfl fun racing => Stage.noConfusion (fresh.1.symm.trans racing)
      · exact @Budgeted.leave T serial (serial.say _) budget rfl rfl .returned nofun
    · exact same
  | nextModel => cases plain
  | noRoute why =>
    dsimp only [Serial.step]
    split
    · rename_i ready
      have routing : serial.stage = .routing :=
        of_decide_eq_true (Bool.and_eq_true_iff.mp (Bool.and_eq_true_iff.mp ready).1).1
      cases why with
      | deadline | decryption | keys =>
        exact budget.same rfl rfl fun racing => Stage.noConfusion (routing.symm.trans racing)
    · exact same
  | race keys primary => cases plain
  | exhaust transient deferral =>
    dsimp only [Serial.step]
    split
    · cases deferral with
      | refused | queued =>
        exact @Budgeted.leave T serial (serial.say _) budget rfl rfl .returned nofun
      | unconfirmed => exact budget.leave rfl rfl nofun
    · exact same
  | crash =>
    dsimp only [Serial.step]
    split
    · exact budget.leave rfl rfl nofun
    · exact same
  | take => exact budget.take
  | softTimer =>
    dsimp only [Serial.step]
    split
    · rename_i ready
      exact budget.reserves rfl rfl (budget.race ready.1) ready.1 route
    · exact same
  | deadline =>
    dsimp only [Serial.step]
    split
    · refine budget.settle ?_ ?_ _ <;> rfl
    · exact same
  | stall =>
    dsimp only [Serial.step]
    split
    · exact @Budgeted.leave T serial (serial.say _) budget rfl rfl .returned nofun
    · exact same
  | interrupt =>
    dsimp only [Serial.step]
    split
    · exact same
    · exact budget.leave rfl rfl nofun
  | prepared index found =>
    cases found with
    | true => cases plain
    | false =>
      dsimp only [Serial.step]
      split
      · rename_i stored
        exact budget.task stored fun _ => by simp
      · exact same
  | run | emit | close | fail | abandon =>
    dsimp only [Serial.step]
    split
    · rename_i stored
      exact budget.task stored nofun
    · exact same

/-! ## The steps that take attempts -/

/-- A prepared reserve joins the race. -/
def join (route : Route) (serial : Serial T) (index : Nat) (task : KeyTask T) : Serial T :=
  let joined := { serial with
    keys := serial.keys ++ [index]
    remaining := serial.remaining - 1
    dispatched := serial.dispatched + 1 }
  ({ joined with reserve := joined.rearmed route .disabled }.change index
    { task with stage := .calling }).put index .wake

theorem rearmed_waiting (otherwise : ReservePhase) (other : otherwise ≠ .waiting)
    (waits : serial.rearmed route otherwise = .waiting) : 0 < serial.remaining := by
  unfold rearmed at waits
  split at waits
  · rename_i left
    simp only [Bool.and_eq_true, decide_eq_true_eq] at left
    exact left.1.2
  · exact absurd waits other

theorem begun_set {index : Nat} {old new : KeyTask T} {tasks : List (KeyTask T)}
    (found : tasks[index]? = some old) (begun : new.Begun) (other : Nat) (task : KeyTask T)
    (stored : tasks[other]? = some task) (still : task.Begun) :
    ∃ later : KeyTask T, (tasks.set index new)[other]? = some later ∧ later.Begun := by
  obtain ⟨bound, _⟩ := List.getElem?_eq_some_iff.mp found
  rw [List.getElem?_set]
  by_cases same : index = other
  · rw [if_pos same, if_pos bound]
    exact ⟨new, rfl, begun⟩
  · rw [if_neg same]
    exact ⟨task, stored, still⟩

theorem Budgeted.join (budget : serial.Budgeted) {index : Nat} {task : KeyTask T}
    (found : serial.tasks[index]? = some task) (prepares : task.stage = .preparing) :
    (serial.join route index task).Budgeted := by
  have left := budget.funded index task found prepares
  -- The reserve that joins was the one that was prepared.
  have none : ∀ (other : Nat) (later : KeyTask T),
      (serial.tasks.set index { task with stage := .calling })[other]? = some later →
      later.stage ≠ .preparing := by
    intro other later read prepared
    rcases getElem?_set_cases read with ⟨_, rfl⟩ | ⟨ne, stored⟩
    · cases prepared
    · exact ne (budget.single other index later task stored found prepared prepares)
  refine ⟨fun first _ one _ read _ stage => absurd stage (none first one read),
    fun other later read stage => absurd stage (none other later read), fun stage => ?_⟩
  have racing := budget.race stage
  refine ⟨rearmed_waiting .disabled ReservePhase.noConfusion, fun _ => none, ?_, ?_, ?_⟩
  · have limit := racing.limit
    change (serial.keys ++ [index]).length + (serial.remaining - 1) = serial.dispatchLimit
    rw [List.length_append, List.length_singleton]
    omega
  · intro other later read
    rcases getElem?_set_cases read with ⟨_, rfl⟩ | ⟨_, stored⟩
    · exact racing.uncancelled index task found
    · exact racing.uncancelled other later stored
  · intro other later read past
    rcases getElem?_set_cases read with ⟨_, rfl⟩ | ⟨_, stored⟩
    · cases past
    · exact (racing.marked other later stored past).imp_right (List.mem_append_left _)

theorem idle_ended (idle : serial.idle = true) {index : Nat} {task : KeyTask T}
    (found : serial.tasks[index]? = some task) : task.stage = .ended :=
  of_decide_eq_true (List.all_eq_true.mp (Bool.and_eq_true_iff.mp idle).2 task
    (List.mem_of_getElem? found))

theorem idle_routing (idle : serial.idle = true) : serial.stage = .routing :=
  of_decide_eq_true (Bool.and_eq_true_iff.mp idle).1

/-- Between two attempts any number of attempts may be left. -/
theorem Budgeted.refill (idle : before.idle = true) (tasks : after.tasks = before.tasks)
    (stage : after.stage = before.stage) : after.Budgeted where
  single _ _ _ _ read _ prepares _ :=
    absurd prepares (idle_ended idle (tasks ▸ read) ▸ TaskStage.noConfusion)
  funded _ _ read prepares :=
    absurd prepares (idle_ended idle (tasks ▸ read) ▸ TaskStage.noConfusion)
  race racing := Stage.noConfusion ((idle_routing idle).symm.trans (stage.symm.trans racing))

theorem Budgeted.start (route : Route) (serial : Serial T) (keys : Nat) (primary : Bool) :
    (serial.start route keys primary).Budgeted := by
  have fresh : ∀ (index : Nat) (task : KeyTask T),
      (serial.start route keys primary).tasks[index]? = some task →
      task = ⟨.created, false, [], none⟩ := fun index task read =>
    List.eq_of_mem_replicate (List.mem_of_getElem? read)
  refine ⟨?_, ?_, fun _ => ⟨?_, ?_, ?_, ?_, ?_⟩⟩
  · intro first _ one _ read _ prepares
    cases (fresh first one read) ▸ prepares
  · intro index task read prepares
    cases (fresh index task read) ▸ prepares
  · intro waits
    simp only [Serial.start] at waits ⊢
    split at waits
    · rename_i left
      exact left.1
    · cases waits
  · intro _ index task read prepares
    cases (fresh index task read) ▸ prepares
  · change (List.range keys).length + _ = _
    rw [List.length_range]
    rfl
  · intro index task read
    rw [fresh index task read]
  · intro index task read past
    cases (fresh index task read) ▸ past

theorem initial_budgeted (route : Route) : (Serial.initial route : Serial T).Budgeted where
  single _ _ _ _ read := by cases read
  funded _ _ read := by cases read
  race racing := Stage.noConfusion racing

/-! ## A race that waits -/

/-- While ends are missing, an entry waits in the queue or a task is not over. -/
theorem Racing.waits (racing : serial.Racing)
    (missing : serial.finished.length < serial.tasks.length) :
    serial.queue ≠ [] ∨ ∃ (index : Nat) (task : KeyTask T),
      serial.tasks[index]? = some task ∧ task.stage ≠ .ended := by
  by_cases empty : serial.queue = []
  · right
    -- If every task is over, every end was counted.
    refine Classical.byContradiction fun past => ?_
    have counted : List.range serial.tasks.length ⊆ serial.finished := by
      intro index member
      have inside := List.mem_range.mp member
      have found := List.getElem?_eq_getElem inside
      have ended : serial.tasks[index].stage = .ended :=
        Decidable.byContradiction fun going => past ⟨index, _, found, going⟩
      rcases racing.marked index _ found ended with known | waits
      · exact known
      · rw [empty] at waits
        cases waits
    have length := (List.nodup_range.subperm counted).length_le
    rw [List.length_range] at length
    omega
  · exact .inl empty

end Serial

end BobbyBotique.Router
