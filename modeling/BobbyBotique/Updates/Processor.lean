import BobbyBotique.Foundation.AsyncLock
import BobbyBotique.Foundation.Dict
import BobbyBotique.Foundation.Run

/-!
# Updates of one user

`UserScopedUpdateProcessor`: a stateful update takes the lock of its user before
it asks for a global slot.  Locks are made on demand and counted, and the last
update that leaves a lock takes its entry out of the table.
-/

namespace BobbyBotique.Updates

open Run

/-- The fields of an update that the processor looks at. -/
structure Update where
  effectiveUser : Option Nat
  callbackQuery : Bool
  inlineQuery : Bool
  chosenInlineResult : Bool
  editedMessage : Bool
  message : Bool

inductive UpdateKind where
  | callbackQuery | inlineQuery | chosenInlineResult | editedMessage | message | other
  deriving DecidableEq

def Update.updateKind (update : Update) : UpdateKind :=
  if update.callbackQuery then .callbackQuery
  else if update.inlineQuery then .inlineQuery
  else if update.chosenInlineResult then .chosenInlineResult
  else if update.editedMessage then .editedMessage
  else if update.message then .message
  else .other

/-- The user whose lock the update takes. -/
def Update.userLane (update : Update) : Option Nat :=
  if update.updateKind = .inlineQuery then none else update.effectiveUser

structure UserLock where
  lock : AsyncLock
  references : Nat

/-- Waiting for the user lock, past it, and holding a global slot. -/
inductive UpdateStage where
  | queued | admitted | processing
  deriving DecidableEq

/-- An update in `process_update`, with the user and the entry whose lock it takes. -/
structure UpdateTask where
  update : Update
  lane : Option (Nat × Nat)
  stage : UpdateStage

def UpdateTask.inside (address : Nat) (task : UpdateTask) : Bool :=
  task.lane.any fun lane => lane.2 == address

structure UpdateProcessor where
  maxConcurrentUpdates : Nat
  userLocks : Dict Nat Nat
  heap : Dict Nat UserLock
  tasks : Dict Nat UpdateTask
  nextLock : Nat
  nextTask : Nat
  /-- The stateful updates in the order in which they came and passed their lock. -/
  arrivals : List (Nat × Nat)
  passes : List (Nat × Nat)

inductive ProcessorLabel where
  | arrive (update : Update)
  /-- The task of an update is cancelled. -/
  | cancel (task : Nat)
  /-- A task that waits for its user lock runs on. -/
  | resume (task : Nat)
  /-- The base processor gives the task a slot. -/
  | grant (task : Nat)
  /-- The base processor returns or raises. -/
  | leave (task : Nat)

namespace UpdateProcessor

def initial (limit : Nat) : UpdateProcessor where
  maxConcurrentUpdates := limit
  userLocks := Dict.empty
  heap := Dict.empty
  tasks := Dict.empty
  nextLock := 0
  nextTask := 0
  arrivals := []
  passes := []

/-- The slots that the tasks of a kind hold. -/
def slots (processor : UpdateProcessor) (counts : UpdateTask → Bool) : Nat :=
  processor.tasks.total fun _ task =>
    if task.stage = .processing && counts task then 1 else 0

/-- Make the entry of a user who has none. -/
def register (processor : UpdateProcessor) (user : Nat) : UpdateProcessor × Nat :=
  match processor.userLocks.get? user with
  | some address => (processor, address)
  | none =>
    ({ processor with
        userLocks := processor.userLocks.set user processor.nextLock
        heap := processor.heap.set processor.nextLock ⟨.initial, 0⟩
        nextLock := processor.nextLock + 1 },
      processor.nextLock)

/-- A stateful update counts itself and asks for the lock. -/
def enter (processor : UpdateProcessor) (update : Update) (user address : Nat) :
    UpdateProcessor :=
  match processor.heap.get? address with
  | none => processor
  | some entry =>
    let task := processor.nextTask
    if entry.lock.free then
      { processor with
        heap := processor.heap.set address ⟨entry.lock.take, entry.references + 1⟩
        tasks := processor.tasks.set task ⟨update, some (user, address), .admitted⟩
        nextTask := task + 1
        arrivals := processor.arrivals ++ [(user, task)]
        passes := processor.passes ++ [(user, task)] }
    else
      { processor with
        heap := processor.heap.set address ⟨entry.lock.enqueue task, entry.references + 1⟩
        tasks := processor.tasks.set task ⟨update, some (user, address), .queued⟩
        nextTask := task + 1
        arrivals := processor.arrivals ++ [(user, task)] }

def arrive (processor : UpdateProcessor) (update : Update) : UpdateProcessor :=
  match update.userLane with
  | none =>
    { processor with
      tasks := processor.tasks.set processor.nextTask ⟨update, none, .admitted⟩
      nextTask := processor.nextTask + 1 }
  | some user =>
    let registered := processor.register user
    registered.1.enter update user registered.2

/-- The `finally` of an update that leaves the lock as `lock`. -/
def exit (processor : UpdateProcessor) (task user address : Nat) (entry : UserLock)
    (lock : AsyncLock) : UpdateProcessor :=
  let references := entry.references - 1
  { processor with
    heap := processor.heap.set address ⟨lock, references⟩
    tasks := processor.tasks.del task
    userLocks := if references = 0 then processor.userLocks.del user else processor.userLocks }

/-- A task that waits for its user lock runs on. -/
def runOn (processor : UpdateProcessor) (task user address : Nat) (update : Update)
    (entry : UserLock) : UpdateProcessor :=
  let outcome := entry.lock.resume task
  match outcome.2 with
  | .waits => processor
  | .acquired =>
    { processor with
      heap := processor.heap.set address { entry with lock := outcome.1 }
      tasks := processor.tasks.set task ⟨update, some (user, address), .admitted⟩
      passes := processor.passes ++ [(user, task)] }
  | .cancelled => processor.exit task user address entry outcome.1

/-- The task of an update is cancelled while it waits for its user lock. -/
def cancel (processor : UpdateProcessor) (task : Nat) : UpdateProcessor :=
  match processor.tasks.get? task with
  | some ⟨_, some (_, address), .queued⟩ =>
    match processor.heap.get? address with
    | none => processor
    | some entry =>
      { processor with
        heap := processor.heap.set address { entry with lock := entry.lock.cancel task } }
  | _ => processor

def resume (processor : UpdateProcessor) (task : Nat) : UpdateProcessor :=
  match processor.tasks.get? task with
  | some ⟨update, some (user, address), .queued⟩ =>
    match processor.heap.get? address with
    | none => processor
    | some entry => processor.runOn task user address update entry
  | _ => processor

def grant (processor : UpdateProcessor) (task : Nat) : UpdateProcessor :=
  match processor.tasks.get? task with
  | some ⟨update, lane, .admitted⟩ =>
    if processor.slots (fun _ => true) < processor.maxConcurrentUpdates then
      { processor with tasks := processor.tasks.set task ⟨update, lane, .processing⟩ }
    else processor
  | _ => processor

def leave (processor : UpdateProcessor) (task : Nat) : UpdateProcessor :=
  match processor.tasks.get? task with
  | some ⟨_, _, .queued⟩ => processor
  | some ⟨_, none, _⟩ => { processor with tasks := processor.tasks.del task }
  | some ⟨_, some (user, address), _⟩ =>
    match processor.heap.get? address with
    | none => processor
    | some entry => processor.exit task user address entry entry.lock.release
  | none => processor

def step (processor : UpdateProcessor) : ProcessorLabel → UpdateProcessor
  | .arrive update => processor.arrive update
  | .cancel task => processor.cancel task
  | .resume task => processor.resume task
  | .grant task => processor.grant task
  | .leave task => processor.leave task

/-- The updates of a user in a record of arrivals or passes. -/
def ofUser (user : Nat) (record : List (Nat × Nat)) : List Nat :=
  (record.filter fun entry => entry.1 == user).map Prod.snd

/-- An entry fits the tasks whose lane is its address. -/
structure Fits (tasks : Dict Nat UpdateTask) (address : Nat) (entry : UserLock) : Prop where
  sound : entry.lock.Sound
  counted : entry.references = tasks.total fun _ task => if task.inside address then 1 else 0
  queued : ∀ id, id ∈ entry.lock.tasks ↔
    ∃ task, tasks.get? id = some task ∧ task.inside address = true ∧ task.stage = .queued
  held : ∀ id task, tasks.get? id = some task → task.inside address = true →
    task.stage ≠ .queued → entry.lock.locked = true
  alone : ∀ id task other mate, tasks.get? id = some task → tasks.get? other = some mate →
    task.inside address = true → mate.inside address = true →
    task.stage ≠ .queued → mate.stage ≠ .queued → id = other

section Fits

variable {tasks next : Dict Nat UpdateTask} {address id : Nat} {entry : UserLock}
  {task old : UpdateTask} {lock : AsyncLock}

/-- The tasks of other lanes do not matter. -/
theorem Fits.frame (fits : Fits tasks address entry)
    (same : ∀ id task, task.inside address = true →
      (next.get? id = some task ↔ tasks.get? id = some task)) : Fits next address entry := by
  refine ⟨fits.sound, fits.counted.trans ?_, ?_, ?_, ?_⟩
  · apply Dict.total_congr
    intro id
    unfold Dict.weightAt
    cases before : tasks.get? id with
    | none =>
      cases after : next.get? id with
      | none => rfl
      | some task =>
        by_cases mine : task.inside address = true
        · have found := (same id task mine).mp after
          rw [before] at found
          cases found
        · exact (if_neg mine).symm
    | some task =>
      by_cases mine : task.inside address = true
      · rw [(same id task mine).mpr before]
      · cases after : next.get? id with
        | none => exact if_neg mine
        | some other =>
          by_cases yours : other.inside address = true
          · have found := (same id other yours).mp after
            rw [before] at found
            cases found
            exact absurd yours mine
          · exact (if_neg mine).trans (if_neg yours).symm
  · intro id
    rw [fits.queued id]
    constructor
    · rintro ⟨task, found, mine, waits⟩
      exact ⟨task, (same id task mine).mpr found, mine, waits⟩
    · rintro ⟨task, found, mine, waits⟩
      exact ⟨task, (same id task mine).mp found, mine, waits⟩
  · intro id task found mine past
    exact fits.held id task ((same id task mine).mp found) mine past
  · intro id task other mate found also mine yours past too
    exact fits.alone id task other mate ((same id task mine).mp found)
      ((same other mate yours).mp also) mine yours past too

/-- A newcomer that the lock takes or lets wait. -/
theorem Fits.join (fits : Fits tasks address entry) (fresh : tasks.get? id = none)
    (mine : task.inside address = true) (sound : lock.Sound)
    (queued : ∀ other, other ∈ lock.tasks ↔
      other ∈ entry.lock.tasks ∨ other = id ∧ task.stage = .queued)
    (held : entry.lock.locked = true → lock.locked = true)
    (past : task.stage ≠ .queued → entry.lock.locked = false ∧ lock.locked = true) :
    Fits (tasks.set id task) address ⟨lock, entry.references + 1⟩ := by
  have counted := fits.counted
  have members := fits.queued
  have before := fits.held
  have alone := fits.alone
  refine ⟨sound, ?_, ?_, ?_, ?_⟩
  · have total := Dict.total_set tasks
      (fun _ task => if UpdateTask.inside address task then 1 else 0) id task
    rw [Dict.weightAt, fresh, ← counted, if_pos mine] at total
    exact total.symm
  · intro other
    rw [queued, members, Dict.get?_set]
    grind
  · intro other mate
    rw [Dict.get?_set]
    grind
  · intro other mate third peer
    rw [Dict.get?_set, Dict.get?_set]
    grind

/-- A task of the lane goes on. -/
theorem Fits.restage (fits : Fits tasks address entry) (found : tasks.get? id = some old)
    (was : old.inside address = true) (mine : task.inside address = true) (sound : lock.Sound)
    (queued : ∀ other, other ∈ lock.tasks ↔ other ∈ entry.lock.tasks ∧
      (other = id → task.stage = .queued))
    (stays : task.stage = .queued → old.stage = .queued)
    (held : entry.lock.locked = true → lock.locked = true)
    (past : old.stage = .queued → task.stage ≠ .queued →
      entry.lock.locked = false ∧ lock.locked = true) :
    Fits (tasks.set id task) address { entry with lock := lock } := by
  have counted := fits.counted
  have members := fits.queued
  have before := fits.held
  have alone := fits.alone
  refine ⟨sound, ?_, ?_, ?_, ?_⟩
  · have total := Dict.total_set tasks
      (fun _ task => if UpdateTask.inside address task then 1 else 0) id task
    rw [Dict.weightAt, found, Option.elim_some, if_pos was, if_pos mine, ← counted] at total
    exact (Nat.add_right_cancel total).symm
  · intro other
    rw [queued, members, Dict.get?_set]
    grind
  · intro other mate
    rw [Dict.get?_set]
    grind
  · intro other mate third peer
    rw [Dict.get?_set, Dict.get?_set]
    grind

/-- A task of the lane goes away. -/
theorem Fits.part (fits : Fits tasks address entry) (found : tasks.get? id = some old)
    (was : old.inside address = true) (sound : lock.Sound)
    (queued : ∀ other, other ∈ lock.tasks ↔ other ∈ entry.lock.tasks ∧ other ≠ id)
    (held : old.stage = .queued → entry.lock.locked = true → lock.locked = true) :
    Fits (tasks.del id) address ⟨lock, entry.references - 1⟩ := by
  have counted := fits.counted
  have members := fits.queued
  have before := fits.held
  have alone := fits.alone
  refine ⟨sound, ?_, ?_, ?_, ?_⟩
  · have total := Dict.total_del tasks
      (fun _ task => if UpdateTask.inside address task then 1 else 0) id
    rw [Dict.weightAt, found, Option.elim_some, if_pos was, ← counted] at total
    exact (Nat.eq_sub_of_add_eq total).symm
  · intro other
    rw [queued, members, Dict.get?_del]
    grind
  · intro other mate
    rw [Dict.get?_del]
    grind
  · intro other mate third peer
    rw [Dict.get?_del, Dict.get?_del]
    grind

/-- A lane that no task takes. -/
theorem deserted_total (nobody : ∀ id task, tasks.get? id = some task →
    task.inside address = false) :
    (tasks.total fun _ task => if UpdateTask.inside address task then 1 else 0) = 0 := by
  show _ = (Dict.empty : Dict Nat UpdateTask).total fun _ _ => 0
  apply Dict.total_congr
  intro id
  unfold Dict.weightAt
  cases found : tasks.get? id with
  | none => rfl
  | some task =>
    exact if_neg fun mine => Bool.false_ne_true ((nobody id task found).symm.trans mine)

/-- An entry with a reference has a task. -/
theorem Fits.inhabited (fits : Fits tasks address entry) (positive : 0 < entry.references) :
    ∃ id task, tasks.get? id = some task ∧ task.inside address = true := by
  by_contra none
  have zero := fits.counted.trans (deserted_total fun id task found =>
    eq_false_of_ne_true fun mine => none ⟨id, task, found, mine⟩)
  rw [zero] at positive
  exact Nat.lt_irrefl 0 positive

/-- An entry without references has none. -/
theorem Fits.deserted (fits : Fits tasks address entry) (zero : entry.references = 0)
    (found : tasks.get? id = some task) : task.inside address = false := by
  apply eq_false_of_ne_true
  intro mine
  have total := Dict.total_del tasks
    (fun _ task => if UpdateTask.inside address task then 1 else 0) id
  rw [Dict.weightAt, found, Option.elim_some, if_pos mine, ← fits.counted, zero] at total
  exact absurd total (Nat.succ_ne_zero _)

end Fits

structure Sound (processor : UpdateProcessor) : Prop where
  fits : ∀ address entry, processor.heap.get? address = some entry →
    Fits processor.tasks address entry
  laned : ∀ id task user address, processor.tasks.get? id = some task →
    task.lane = some (user, address) →
    processor.userLocks.get? user = some address ∧ task.update.userLane = some user
  bypassed : ∀ id task, processor.tasks.get? id = some task → task.lane = none →
    task.update.userLane = none ∧ task.stage ≠ .queued
  stored : ∀ user address, processor.userLocks.get? user = some address →
    ∃ entry, processor.heap.get? address = some entry
  apart : ∀ user other address, processor.userLocks.get? user = some address →
    processor.userLocks.get? other = some address → user = other
  fresh : ∀ id task, processor.tasks.get? id = some task → id < processor.nextTask
  unused : ∀ address entry, processor.heap.get? address = some entry → address < processor.nextLock
  ordered : ∀ user address entry, processor.userLocks.get? user = some address →
    processor.heap.get? address = some entry →
    (ofUser user processor.passes ++ entry.lock.queue).Sublist (ofUser user processor.arrivals)
  passed : ∀ user, (ofUser user processor.passes).Sublist (ofUser user processor.arrivals)

theorem ofUser_same (user task : Nat) (record : List (Nat × Nat)) :
    ofUser user (record ++ [(user, task)]) = ofUser user record ++ [task] := by
  unfold ofUser
  rw [List.filter_append, List.map_append, List.filter_singleton, beq_self_eq_true]
  rfl

theorem ofUser_other {user other : Nat} (task : Nat) (record : List (Nat × Nat))
    (apart : user ≠ other) : ofUser user (record ++ [(other, task)]) = ofUser user record := by
  have skip : (other == user) = false := beq_eq_false_iff_ne.mpr (Ne.symm apart)
  unfold ofUser
  rw [List.filter_append, List.map_append, List.filter_singleton, skip]
  exact List.append_nil _

theorem inside_lane {task : UpdateTask} {user address : Nat}
    (lane : task.lane = some (user, address)) : task.inside address = true := by
  unfold UpdateTask.inside
  rw [lane]
  exact beq_self_eq_true address

theorem lane_of_inside {task : UpdateTask} {address : Nat} (mine : task.inside address = true) :
    ∃ user, task.lane = some (user, address) := by
  unfold UpdateTask.inside at mine
  generalize task.lane = lane at mine ⊢
  cases lane with
  | none => cases mine
  | some pair =>
    obtain rfl := eq_of_beq mine
    exact ⟨pair.1, rfl⟩

theorem inside_unique {task : UpdateTask} {address other : Nat}
    (mine : task.inside address = true) (yours : task.inside other = true) : address = other := by
  obtain ⟨user, lane⟩ := lane_of_inside mine
  obtain ⟨_, too⟩ := lane_of_inside yours
  rw [lane] at too
  cases too
  rfl

theorem initial_sound (limit : Nat) : (initial limit).Sound := by
  constructor
  case fits => exact fun _ _ absurd => nomatch absurd
  case laned => exact fun _ _ _ _ absurd => nomatch absurd
  case bypassed => exact fun _ _ absurd => nomatch absurd
  case stored => exact fun _ _ absurd => nomatch absurd
  case apart => exact fun _ _ _ absurd => nomatch absurd
  case fresh => exact fun _ _ absurd => nomatch absurd
  case unused => exact fun _ _ absurd => nomatch absurd
  case ordered => exact fun _ _ _ absurd => nomatch absurd
  case passed => exact fun _ => List.Sublist.refl _

variable {processor : UpdateProcessor}

/-- One entry and the tasks of its lane change. -/
theorem Sound.fits_set (sound : processor.Sound) {address : Nat} {entry : UserLock}
    {tasks : Dict Nat UpdateTask} (own : Fits tasks address entry)
    (elsewhere : ∀ other, other ≠ address → ∀ id task, task.inside other = true →
      (tasks.get? id = some task ↔ processor.tasks.get? id = some task))
    (other : Nat) (stored : UserLock)
    (found : (processor.heap.set address entry).get? other = some stored) :
    Fits tasks other stored := by
  rw [Dict.get?_set] at found
  split at found
  · next same =>
      cases found
      rw [same]
      exact own
  · next apart => exact (sound.fits other stored found).frame (elsewhere other apart)

theorem elsewhere_set {tasks : Dict Nat UpdateTask} {address id : Nat} {task : UpdateTask}
    (mine : task.inside address = true)
    (old : ∀ before, tasks.get? id = some before → before.inside address = true) (other : Nat)
    (apart : other ≠ address) (key : Nat) (mate : UpdateTask) (yours : mate.inside other = true) :
    (tasks.set id task).get? key = some mate ↔ tasks.get? key = some mate := by
  rw [Dict.get?_set]
  split
  · next same =>
      constructor
      · intro found
        cases found
        exact absurd (inside_unique yours mine) apart
      · intro found
        rw [same] at found
        exact absurd (inside_unique yours (old mate found)) apart
  · rfl

theorem elsewhere_del {tasks : Dict Nat UpdateTask} {address id : Nat}
    (old : ∀ before, tasks.get? id = some before → before.inside address = true) (other : Nat)
    (apart : other ≠ address) (key : Nat) (mate : UpdateTask) (yours : mate.inside other = true) :
    (tasks.del id).get? key = some mate ↔ tasks.get? key = some mate := by
  rw [Dict.get?_del]
  split
  · next same =>
      constructor
      · intro found
        cases found
      · intro found
        rw [same] at found
        exact absurd (inside_unique yours (old mate found)) apart
  · rfl

theorem Sound.register (sound : processor.Sound) (user : Nat) :
    (processor.register user).1.Sound := by
  unfold UpdateProcessor.register
  split
  · exact sound
  · next missing =>
      have nobody : ∀ id task, processor.tasks.get? id = some task →
          task.inside processor.nextLock = false := by
        intro id task found
        apply eq_false_of_ne_true
        intro mine
        obtain ⟨user, lane⟩ := lane_of_inside mine
        obtain ⟨entry, there⟩ := sound.stored _ _ (sound.laned id task _ _ found lane).1
        exact Nat.lt_irrefl _ (sound.unused _ entry there)
      have own : Fits processor.tasks processor.nextLock ⟨.initial, 0⟩ := by
        refine ⟨AsyncLock.initial_sound, (deserted_total nobody).symm, ?_, ?_, ?_⟩
        · intro id
          constructor
          · exact fun absurd => (List.not_mem_nil absurd).elim
          · rintro ⟨task, found, mine, _⟩
            rw [nobody id task found] at mine
            cases mine
        · intro id task found mine
          rw [nobody id task found] at mine
          cases mine
        · intro id task _ _ found _ mine
          rw [nobody id task found] at mine
          cases mine
      have taken : ∀ other address, processor.userLocks.get? other = some address →
          address ≠ processor.nextLock := by
        intro other address found same
        obtain ⟨entry, there⟩ := sound.stored other address found
        exact Nat.ne_of_lt (sound.unused address entry there) same
      constructor
      case fits => exact sound.fits_set own fun _ _ _ _ _ => Iff.rfl
      case laned =>
          intro id task other address found lane
          obtain ⟨there, kind⟩ := sound.laned id task other address found lane
          refine ⟨?_, kind⟩
          rw [Dict.get?_set_ne _ _ ?_]
          · exact there
          · intro same
            rw [same, missing] at there
            cases there
      case bypassed => exact sound.bypassed
      case stored =>
          intro other address found
          rw [Dict.get?_set] at found ⊢
          split at found
          · cases found
            exact ⟨_, if_pos rfl⟩
          · rw [if_neg (taken other address found)]
            exact sound.stored other address found
      case apart =>
          intro one other address found also
          rw [Dict.get?_set] at found also
          split at found
          · next same =>
              cases found
              split at also
              · next too => exact same.trans too.symm
              · exact absurd rfl (taken other _ also)
          · split at also
            · cases also
              exact absurd rfl (taken one _ found)
            · exact sound.apart one other address found also
      case fresh => exact sound.fresh
      case unused =>
          intro address entry found
          rw [Dict.get?_set] at found
          split at found
          · next same =>
              rw [same]
              exact Nat.lt_succ_self _
          · exact Nat.lt_succ_of_lt (sound.unused address entry found)
      case ordered =>
          intro other address entry found there
          rw [Dict.get?_set] at found there
          split at found
          · cases found
            rw [if_pos rfl] at there
            cases there
            exact (List.append_nil _).symm ▸ sound.passed other
          · rw [if_neg (taken other address found)] at there
            exact sound.ordered other address entry found there
      case passed => exact sound.passed

theorem register_userLocks (processor : UpdateProcessor) (user : Nat) :
    (processor.register user).1.userLocks.get? user = some (processor.register user).2 := by
  unfold UpdateProcessor.register
  split
  · next found => exact found
  · exact Dict.get?_set_self _ _ _

/-- The entry of a user and the tasks of its lane change, and the user's records. -/
theorem Sound.advance (sound : processor.Sound) {next : UpdateProcessor} {user address : Nat}
    {entry : UserLock} (there : processor.userLocks.get? user = some address)
    (locks : next.userLocks = processor.userLocks) (count : next.nextLock = processor.nextLock)
    (heap : ∀ other, next.heap.get? other =
      if other = address then some entry else processor.heap.get? other)
    (own : Fits next.tasks address entry)
    (elsewhere : ∀ other, other ≠ address → ∀ id task, task.inside other = true →
      (next.tasks.get? id = some task ↔ processor.tasks.get? id = some task))
    (known : ∀ id task, next.tasks.get? id = some task →
      processor.tasks.get? id = some task ∨ task.lane = some (user, address) ∧
        task.update.userLane = some user ∧ id < next.nextTask)
    (later : processor.nextTask ≤ next.nextTask)
    (mine : (ofUser user next.passes ++ entry.lock.queue).Sublist (ofUser user next.arrivals))
    (others : ∀ other, other ≠ user → ofUser other next.passes = ofUser other processor.passes ∧
      ofUser other next.arrivals = ofUser other processor.arrivals) : next.Sound := by
  constructor
  case fits =>
      intro other stored found
      rw [heap] at found
      split at found
      · next same =>
          cases found
          rw [same]
          exact own
      · next apart => exact (sound.fits other stored found).frame (elsewhere other apart)
  case laned =>
      intro id task name place found lane
      rw [locks]
      rcases known id task found with old | ⟨now, kind, _⟩
      · exact sound.laned id task name place old lane
      · rw [now] at lane
        cases lane
        exact ⟨there, kind⟩
  case bypassed =>
      intro id task found lane
      rcases known id task found with old | ⟨now, _⟩
      · exact sound.bypassed id task old lane
      · rw [now] at lane
        cases lane
  case stored =>
      intro name place found
      rw [locks] at found
      rw [heap]
      split
      · exact ⟨entry, rfl⟩
      · exact sound.stored name place found
  case apart =>
      rw [locks]
      exact sound.apart
  case fresh =>
      intro id task found
      rcases known id task found with old | ⟨_, _, bound⟩
      · exact Nat.lt_of_lt_of_le (sound.fresh id task old) later
      · exact bound
  case unused =>
      intro place stored found
      rw [count]
      rw [heap] at found
      split at found
      · next same =>
          obtain ⟨before, old⟩ := sound.stored user address there
          rw [same]
          exact sound.unused address before old
      · exact sound.unused place stored found
  case ordered =>
      intro name place stored found old
      rw [locks] at found
      rw [heap] at old
      split at old
      · next same =>
          rw [same] at found
          cases old
          rw [sound.apart name user address found there]
          exact mine
      · next apart =>
          have other : name ≠ user := by
            rintro rfl
            rw [there] at found
            exact apart (Option.some.inj found).symm
          rw [(others name other).1, (others name other).2]
          exact sound.ordered name place stored found old
  case passed =>
      intro name
      by_cases same : name = user
      · rw [same]
        exact (List.sublist_append_left _ _).trans mine
      · rw [(others name same).1, (others name same).2]
        exact sound.passed name

/-- The last update out takes the entry of its user away. -/
theorem Sound.forget (sound : processor.Sound) {user address : Nat} {entry : UserLock}
    (there : processor.userLocks.get? user = some address)
    (found : processor.heap.get? address = some entry) (zero : entry.references = 0) :
    ({ processor with userLocks := processor.userLocks.del user }).Sound := by
  constructor
  case fits => exact sound.fits
  case laned =>
      intro id task name place stored lane
      obtain ⟨named, kind⟩ := sound.laned id task name place stored lane
      refine ⟨?_, kind⟩
      apply Dict.get?_del_eq_some.mpr
      refine ⟨?_, named⟩
      rintro rfl
      rw [there] at named
      cases named
      have gone := (sound.fits address entry found).deserted zero stored
      rw [inside_lane lane] at gone
      cases gone
  case bypassed => exact sound.bypassed
  case stored =>
      exact fun name place stored => sound.stored name place (Dict.get?_del_eq_some.mp stored).2
  case apart =>
      intro one other place first second
      exact sound.apart one other place (Dict.get?_del_eq_some.mp first).2
        (Dict.get?_del_eq_some.mp second).2
  case fresh => exact sound.fresh
  case unused => exact sound.unused
  case ordered =>
      intro name place stored first
      exact sound.ordered name place stored (Dict.get?_del_eq_some.mp first).2
  case passed => exact sound.passed

theorem Sound.enter (sound : processor.Sound) {update : Update} {user address : Nat}
    (there : processor.userLocks.get? user = some address)
    (kind : update.userLane = some user) : (processor.enter update user address).Sound := by
  have unknown : processor.tasks.get? processor.nextTask = none := by
    cases found : processor.tasks.get? processor.nextTask with
    | none => rfl
    | some task => exact absurd (sound.fresh _ task found) (Nat.lt_irrefl _)
  have nobody : ∀ before, processor.tasks.get? processor.nextTask = some before →
      before.inside address = true := by
    intro before found
    rw [unknown] at found
    cases found
  unfold UpdateProcessor.enter
  cases found : processor.heap.get? address with
  | none => exact sound
  | some entry =>
    have fits := sound.fits address entry found
    have ordered := sound.ordered user address entry there found
    have outside : processor.nextTask ∉ entry.lock.tasks := by
      intro among
      obtain ⟨task, here, _⟩ := (fits.queued _).mp among
      rw [unknown] at here
      cases here
    have known : ∀ stage id task, (processor.tasks.set processor.nextTask
        ⟨update, some (user, address), stage⟩).get? id = some task →
        processor.tasks.get? id = some task ∨ task.lane = some (user, address) ∧
          task.update.userLane = some user ∧ id < processor.nextTask + 1 := by
      intro stage id task stored
      rw [Dict.get?_set] at stored
      split at stored
      · next same =>
          cases stored
          exact .inr ⟨rfl, kind, same ▸ Nat.lt_succ_self _⟩
      · exact .inl stored
    dsimp only
    split
    · next free =>
        have open' : entry.lock.locked = false := by
          have holds := (Bool.and_eq_true_iff.mp free).1
          exact Bool.not_eq_true' _ ▸ holds
        refine sound.advance there rfl rfl (fun other => Dict.get?_set _ _ _ _) ?_
          (elsewhere_set (inside_lane rfl) nobody) (known _) (Nat.le_succ _) ?_ ?_
        · refine fits.join unknown (inside_lane rfl) (fits.sound.take free) ?_ (fun _ => rfl)
            (fun _ => ⟨open', rfl⟩)
          intro other
          constructor
          · exact .inl
          · rintro (old | ⟨_, absurd⟩)
            · exact old
            · cases absurd
        · rw [AsyncLock.free_queue free, List.append_nil] at ordered
          dsimp only
          rw [AsyncLock.take_queue, AsyncLock.free_queue free, List.append_nil, ofUser_same,
            ofUser_same]
          exact ordered.append (List.Sublist.refl _)
        · intro other apart
          exact ⟨ofUser_other _ _ apart, ofUser_other _ _ apart⟩
    · next busy =>
        refine sound.advance there rfl rfl (fun other => Dict.get?_set _ _ _ _) ?_
          (elsewhere_set (inside_lane rfl) nobody) (known _) (Nat.le_succ _) ?_ ?_
        · refine fits.join unknown (inside_lane rfl)
            (fits.sound.enqueue (eq_false_of_ne_true busy) outside) ?_ id
            (fun absurd => (absurd rfl).elim)
          intro other
          unfold AsyncLock.tasks AsyncLock.enqueue
          rw [List.map_append, List.mem_append]
          constructor
          · rintro (old | new)
            · exact .inl old
            · exact .inr ⟨List.mem_singleton.mp new, rfl⟩
          · rintro (old | ⟨same, _⟩)
            · exact .inl old
            · exact .inr (List.mem_singleton.mpr same)
        · dsimp only
          rw [AsyncLock.enqueue_queue, ofUser_same, ← List.append_assoc]
          exact ordered.append (List.Sublist.refl _)
        · intro other apart
          exact ⟨rfl, ofUser_other _ _ apart⟩

/-- A task without a lane comes or goes on. -/
theorem Sound.pass (sound : processor.Sound) {task next : Nat} {update : Update}
    {stage : UpdateStage} (bypasses : update.userLane = none) (past : stage ≠ .queued)
    (free : ∀ old, processor.tasks.get? task = some old → old.lane = none)
    (later : processor.nextTask ≤ next) (below : task < next) :
    ({ processor with
        tasks := processor.tasks.set task ⟨update, none, stage⟩
        nextTask := next }).Sound := by
  have known : ∀ id work, (processor.tasks.set task ⟨update, none, stage⟩).get? id = some work →
      processor.tasks.get? id = some work ∨ work = ⟨update, none, stage⟩ ∧ id = task := by
    intro id work now
    rw [Dict.get?_set] at now
    split at now
    · next same =>
        cases now
        exact .inr ⟨rfl, same⟩
    · exact .inl now
  constructor
  case fits =>
      intro address entry stored
      refine (sound.fits address entry stored).frame ?_
      intro id work mine
      constructor
      · intro now
        rcases known id work now with old | ⟨rfl, _⟩
        · exact old
        · cases mine
      · intro old
        refine (Dict.get?_set_ne _ _ ?_).trans old
        rintro rfl
        rw [UpdateTask.inside, free _ old] at mine
        cases mine
  case laned =>
      intro id work user address now lane
      rcases known id work now with old | ⟨rfl, _⟩
      · exact sound.laned id work user address old lane
      · cases lane
  case bypassed =>
      intro id work now lane
      rcases known id work now with old | ⟨rfl, _⟩
      · exact sound.bypassed id work old lane
      · exact ⟨bypasses, past⟩
  case stored => exact sound.stored
  case apart => exact sound.apart
  case fresh =>
      intro id work now
      rcases known id work now with old | ⟨_, rfl⟩
      · exact (sound.fresh id work old).trans_le later
      · exact below
  case unused => exact sound.unused
  case ordered => exact sound.ordered
  case passed => exact sound.passed

theorem Sound.arrive (sound : processor.Sound) (update : Update) :
    (processor.arrive update).Sound := by
  unfold UpdateProcessor.arrive
  cases kind : update.userLane with
  | some user => exact (sound.register user).enter (register_userLocks processor user) kind
  | none =>
    exact sound.pass kind UpdateStage.noConfusion
      (fun old found => absurd (sound.fresh _ old found) (Nat.lt_irrefl _)) (Nat.le_succ _)
      (Nat.lt_succ_self _)

/-- A task of a lane, its entry and its user. -/
theorem Sound.lane (sound : processor.Sound) {task user address : Nat} {update : Update}
    {stage : UpdateStage} {entry : UserLock}
    (found : processor.tasks.get? task = some ⟨update, some (user, address), stage⟩)
    (stored : processor.heap.get? address = some entry) :
    processor.userLocks.get? user = some address ∧ update.userLane = some user ∧
      Fits processor.tasks address entry ∧
      (ofUser user processor.passes ++ entry.lock.queue).Sublist
        (ofUser user processor.arrivals) ∧
      ∀ before, processor.tasks.get? task = some before → before.inside address = true := by
  obtain ⟨there, kind⟩ := sound.laned task _ user address found rfl
  refine ⟨there, kind, sound.fits address entry stored,
    sound.ordered user address entry there stored, ?_⟩
  intro before same
  rw [found] at same
  cases same
  exact inside_lane rfl

theorem Sound.cancel (sound : processor.Sound) (task : Nat) : (processor.cancel task).Sound := by
  unfold UpdateProcessor.cancel
  split
  · next update user address found =>
      split
      · exact sound
      · next entry stored =>
          obtain ⟨there, kind, fits, ordered, _⟩ := sound.lane found stored
          refine sound.advance there rfl rfl (fun other => Dict.get?_set _ _ _ _) ?_
            (fun _ _ _ _ _ => Iff.rfl) (fun _ _ old => .inl old) (Nat.le_refl _) ?_
            (fun _ _ => ⟨rfl, rfl⟩)
          · exact ⟨fits.sound.cancel task, fits.counted,
              fun id => @AsyncLock.cancel_tasks entry.lock task ▸ fits.queued id,
              fits.held, fits.alone⟩
          · exact ((List.Sublist.refl _).append AsyncLock.cancel_queue).trans ordered
  · exact sound

/-- The update leaves, and the lock keeps those who wait. -/
theorem Sound.exit (sound : processor.Sound) {task user address : Nat} {update : Update}
    {stage : UpdateStage} {entry : UserLock} {lock : AsyncLock}
    (found : processor.tasks.get? task = some ⟨update, some (user, address), stage⟩)
    (stored : processor.heap.get? address = some entry) (safe : lock.Sound)
    (queued : ∀ other, other ∈ lock.tasks ↔ other ∈ entry.lock.tasks ∧ other ≠ task)
    (queue : lock.queue.Sublist entry.lock.queue)
    (held : stage = .queued → entry.lock.locked = true → lock.locked = true) :
    (processor.exit task user address entry lock).Sound := by
  obtain ⟨there, kind, fits, ordered, mine⟩ := sound.lane found stored
  have kept : ({ processor with
      heap := processor.heap.set address ⟨lock, entry.references - 1⟩
      tasks := processor.tasks.del task } : UpdateProcessor).Sound := by
    refine sound.advance there rfl rfl (fun other => Dict.get?_set _ _ _ _)
      (fits.part found (inside_lane rfl) safe queued held) (elsewhere_del mine) ?_
      (Nat.le_refl _) ?_ (fun _ _ => ⟨rfl, rfl⟩)
    · exact fun _ _ left => .inl (Dict.get?_del_eq_some.mp left).2
    · exact ((List.Sublist.refl _).append queue).trans ordered
  unfold UpdateProcessor.exit
  dsimp only
  split
  · next zero => exact kept.forget there (Dict.get?_set_self _ _ _) zero
  · exact kept

theorem Sound.resume (sound : processor.Sound) (task : Nat) : (processor.resume task).Sound := by
  unfold UpdateProcessor.resume
  split
  · next update user address found =>
      split
      · exact sound
      · next entry stored =>
          obtain ⟨there, kind, fits, ordered, mine⟩ := sound.lane found stored
          unfold UpdateProcessor.runOn
          dsimp only
          split
          · exact sound
          · next acquired =>
              obtain ⟨free, taken⟩ := fits.sound.resume_acquired acquired
              have left := fits.sound.resume_tasks (ne_of_eq_of_ne acquired Resumed.noConfusion)
              refine sound.advance there rfl rfl (fun other => Dict.get?_set _ _ _ _) ?_
                (elsewhere_set (inside_lane rfl) mine) ?_ (Nat.le_refl _) ?_ ?_
              · refine fits.restage found (inside_lane rfl) (inside_lane rfl)
                  (fits.sound.resume task) ?_ UpdateStage.noConfusion
                  (fun _ => taken) (fun _ _ => ⟨free, taken⟩)
                intro other
                rw [left]
                exact and_congr_right fun _ => ⟨fun ne same => absurd same ne,
                  fun absurd same => nomatch absurd same⟩
              · intro id work now
                rw [Dict.get?_set] at now
                split at now
                · next same =>
                    cases now
                    exact .inr ⟨rfl, kind, same ▸ sound.fresh task _ found⟩
                · exact .inl now
              · rw [AsyncLock.acquired_queue fits.sound acquired] at ordered
                dsimp only
                rw [ofUser_same, List.append_assoc]
                exact ordered
              · exact fun other apart => ⟨ofUser_other _ _ apart, rfl⟩
          · next cancelled =>
              refine sound.exit found stored (fits.sound.resume task)
                (fits.sound.resume_tasks (ne_of_eq_of_ne cancelled Resumed.noConfusion))
                (AsyncLock.resume_queue fits.sound) ?_
              intro _ held
              rw [fits.sound.resume_cancelled cancelled]
              exact held
  · exact sound

theorem Sound.leave (sound : processor.Sound) (task : Nat) : (processor.leave task).Sound := by
  unfold UpdateProcessor.leave
  split
  · exact sound
  · next update stage _ found =>
      have left : ∀ id work, (processor.tasks.del task).get? id = some work →
          processor.tasks.get? id = some work :=
        fun _ _ found => (Dict.get?_del_eq_some.mp found).2
      constructor
      case fits =>
          intro address entry stored
          refine (sound.fits address entry stored).frame ?_
          intro id work mine
          constructor
          · exact left id work
          · intro old
            refine Dict.get?_del_eq_some.mpr ⟨?_, old⟩
            rintro rfl
            rw [found] at old
            cases old
            cases mine
      case laned => exact fun id work user address now => sound.laned id work _ _ (left id work now)
      case bypassed => exact fun id work now => sound.bypassed id work (left id work now)
      case stored => exact sound.stored
      case apart => exact sound.apart
      case fresh => exact fun id work now => sound.fresh id work (left id work now)
      case unused => exact sound.unused
      case ordered => exact sound.ordered
      case passed => exact sound.passed
  · next update user address stage past found =>
      split
      · exact sound
      · next entry stored =>
          obtain ⟨there, kind, fits, ordered, mine⟩ := sound.lane found stored
          have through : stage ≠ .queued := by
            rintro rfl
            exact past rfl
          have held := fits.held task _ found (inside_lane rfl) through
          refine sound.exit found stored (fits.sound.release held) ?_
            (@AsyncLock.release_queue entry.lock ▸ List.Sublist.refl _)
            (fun waits => absurd waits through)
          intro other
          rw [AsyncLock.release_tasks]
          refine ⟨fun among => ⟨among, ?_⟩, And.left⟩
          rintro rfl
          obtain ⟨work, same, _, waits⟩ := (fits.queued _).mp among
          rw [found] at same
          cases same
          exact through waits
  · exact sound

/-- An update without a lane gets its slot. -/
theorem Sound.grant_bypassed (sound : processor.Sound) {task : Nat} {update : Update}
    (found : processor.tasks.get? task = some ⟨update, none, .admitted⟩) :
    ({ processor with
        tasks := processor.tasks.set task ⟨update, none, .processing⟩ }).Sound := by
  refine sound.pass (sound.bypassed task _ found rfl).1 UpdateStage.noConfusion ?_ le_rfl
    (sound.fresh _ _ found)
  intro old stored
  cases found.symm.trans stored
  rfl

theorem Sound.grant (sound : processor.Sound) (task : Nat) : (processor.grant task).Sound := by
  unfold UpdateProcessor.grant
  split
  · next update lane found =>
      split
      · cases lane with
        | none => exact sound.grant_bypassed found
        | some pair =>
          obtain ⟨user, address⟩ := pair
          obtain ⟨entry, stored⟩ := sound.stored _ _ (sound.laned task _ _ _ found rfl).1
          obtain ⟨there, kind, fits, ordered, mine⟩ := sound.lane found stored
          have own := fits.held task _ found (inside_lane rfl) UpdateStage.noConfusion
          refine sound.advance there rfl rfl ?_ ?_ (elsewhere_set (inside_lane rfl) mine) ?_
            (Nat.le_refl _) ordered (fun _ _ => ⟨rfl, rfl⟩)
          · intro other
            split
            · next same => exact same ▸ stored
            · rfl
          · refine fits.restage found (inside_lane rfl) (inside_lane rfl) fits.sound ?_
              UpdateStage.noConfusion id UpdateStage.noConfusion
            intro other
            refine ⟨fun among => ⟨among, ?_⟩, And.left⟩
            rintro rfl
            obtain ⟨work, same, _, waits⟩ := (fits.queued _).mp among
            rw [found] at same
            cases same
            cases waits
          · intro id work now
            rw [Dict.get?_set] at now
            split at now
            · next same =>
                cases now
                exact .inr ⟨rfl, kind, same ▸ sound.fresh task _ found⟩
            · exact .inl now
      · exact sound
  · exact sound

theorem Sound.step (sound : processor.Sound) (label : ProcessorLabel) :
    (processor.step label).Sound := by
  cases label with
  | arrive update => exact sound.arrive update
  | cancel task => exact sound.cancel task
  | resume task => exact sound.resume task
  | grant task => exact sound.grant task
  | leave task => exact sound.leave task

/-- Every entry in the table has a reference. -/
def Counted (processor : UpdateProcessor) : Prop :=
  ∀ user address entry, processor.userLocks.get? user = some address →
    processor.heap.get? address = some entry → 0 < entry.references

theorem initial_counted (limit : Nat) : (initial limit).Counted := by
  intro user address entry found
  cases found

theorem Counted.arrive (counted : processor.Counted) (update : Update) :
    (processor.arrive update).Counted := by
  unfold UpdateProcessor.arrive
  cases kind : update.userLane with
  | none => exact counted
  | some user =>
    intro name place entry named stored
    have before : ∀ other, place ≠ (processor.register user).2 →
        (processor.register user).1.userLocks.get? name = some place →
        (processor.register user).1.heap.get? place = some other → 0 < other.references := by
      unfold UpdateProcessor.register
      split
      · exact fun other _ found there => counted name place other found there
      · intro other apart found there
        rw [Dict.get?_set] at found there
        split at found
        · exact absurd (Option.some.inj found).symm apart
        · rw [if_neg apart] at there
          exact counted name place other found there
    dsimp only at named stored
    unfold UpdateProcessor.enter at named stored
    cases found : (processor.register user).1.heap.get? (processor.register user).2 with
    | none =>
      rw [found] at named stored
      refine before entry ?_ named stored
      rintro rfl
      rw [found] at stored
      cases stored
    | some old =>
      rw [found] at named stored
      dsimp only at named stored
      split at stored
      · rw [Dict.get?_set] at stored
        split at stored
        · cases stored
          exact Nat.succ_pos _
        · next free apart =>
            rw [if_pos free] at named
            exact before entry apart named stored
      · rw [Dict.get?_set] at stored
        split at stored
        · cases stored
          exact Nat.succ_pos _
        · next busy apart =>
            rw [if_neg busy] at named
            exact before entry apart named stored

theorem Counted.exit (counted : processor.Counted) (sound : processor.Sound)
    {task user address : Nat} {entry : UserLock} {lock : AsyncLock}
    (there : processor.userLocks.get? user = some address) :
    (processor.exit task user address entry lock).Counted := by
  intro name place other named stored
  unfold UpdateProcessor.exit at named stored
  dsimp only at named stored
  rw [Dict.get?_set] at stored
  split at named
  · next zero =>
      obtain ⟨apart, named⟩ := Dict.get?_del_eq_some.mp named
      split at stored
      · next same =>
          rw [same] at named
          exact absurd (sound.apart name user address named there) apart
      · exact counted name place other named stored
  · next more =>
      split at stored
      · cases stored
        exact Nat.pos_of_ne_zero more
      · exact counted name place other named stored

/-- A change of a lock that keeps the references. -/
theorem Counted.relock (counted : processor.Counted) {address : Nat} {entry : UserLock}
    {lock : AsyncLock} (stored : processor.heap.get? address = some entry)
    (user place : Nat) (other : UserLock) (named : processor.userLocks.get? user = some place)
    (found : (processor.heap.set address { entry with lock := lock }).get? place = some other) :
    0 < other.references := by
  rw [Dict.get?_set] at found
  split at found
  · next same =>
      cases found
      exact counted user address entry (same ▸ named) stored
  · exact counted user place other named found

theorem Counted.step (counted : processor.Counted) (sound : processor.Sound)
    (label : ProcessorLabel) : (processor.step label).Counted := by
  cases label with
  | arrive update => exact counted.arrive update
  | cancel task =>
    show (processor.cancel task).Counted
    unfold UpdateProcessor.cancel
    split
    · split
      · exact counted
      · next stored => exact counted.relock stored
    · exact counted
  | resume task =>
    show (processor.resume task).Counted
    unfold UpdateProcessor.resume
    split
    · next found =>
        split
        · exact counted
        · next stored =>
            unfold UpdateProcessor.runOn
            dsimp only
            split
            · exact counted
            · exact counted.relock stored
            · exact counted.exit sound (sound.laned task _ _ _ found rfl).1
    · exact counted
  | grant task =>
    show (processor.grant task).Counted
    unfold UpdateProcessor.grant
    split
    · split
      · exact counted
      · exact counted
    · exact counted
  | leave task =>
    show (processor.leave task).Counted
    unfold UpdateProcessor.leave
    split
    · exact counted
    · exact counted
    · next found =>
        split
        · exact counted
        · exact counted.exit sound (sound.laned task _ _ _ found rfl).1
    · exact counted

theorem run_sound (limit : Nat) (labels : List ProcessorLabel) :
    (run step (initial limit) labels).Sound ∧ (run step (initial limit) labels).Counted :=
  run_keeps (fun processor : UpdateProcessor => processor.Sound ∧ processor.Counted)
    (fun _ label good => ⟨good.1.step label, good.2.step good.1 label⟩)
    ⟨initial_sound limit, initial_counted limit⟩ labels

/-- A stateful update in the processor takes the entry of its user. -/
theorem Sound.lane_of_stateful (sound : processor.Sound) {id user : Nat} {task : UpdateTask}
    (found : processor.tasks.get? id = some task) (stateful : task.update.userLane = some user) :
    ∃ address entry, task.inside address = true ∧ processor.userLocks.get? user = some address ∧
      processor.heap.get? address = some entry := by
  cases lane : task.lane with
  | none =>
    rw [(sound.bypassed id task found lane).1] at stateful
    cases stateful
  | some pair =>
    obtain ⟨name, address⟩ := pair
    obtain ⟨there, kind⟩ := sound.laned id task name address found lane
    rw [stateful] at kind
    cases kind
    obtain ⟨entry, stored⟩ := sound.stored user address there
    exact ⟨address, entry, inside_lane lane, there, stored⟩

theorem Sound.exclusive (sound : processor.Sound) {id other user : Nat} {task mate : UpdateTask}
    (found : processor.tasks.get? id = some task) (also : processor.tasks.get? other = some mate)
    (stateful : task.update.userLane = some user) (too : mate.update.userLane = some user)
    (past : task.stage ≠ .queued) (beyond : mate.stage ≠ .queued) : id = other := by
  obtain ⟨address, entry, mine, there, stored⟩ := sound.lane_of_stateful found stateful
  obtain ⟨place, _, yours, here, _⟩ := sound.lane_of_stateful also too
  rw [there] at here
  cases here
  exact (sound.fits address entry stored).alone id task other mate found also mine yours past beyond

/-- An entry in the table has a stateful update of its user. -/
theorem Sound.entry_of_update (sound : processor.Sound) (counted : processor.Counted)
    {user address : Nat} (there : processor.userLocks.get? user = some address) :
    ∃ id task, processor.tasks.get? id = some task ∧ task.update.userLane = some user := by
  obtain ⟨entry, stored⟩ := sound.stored user address there
  obtain ⟨id, task, found, mine⟩ :=
    (sound.fits address entry stored).inhabited (counted user address entry there stored)
  obtain ⟨name, lane⟩ := lane_of_inside mine
  obtain ⟨named, kind⟩ := sound.laned id task name address found lane
  rw [sound.apart user name address there named]
  exact ⟨id, task, found, kind⟩

end UpdateProcessor

theorem effectiveUser_of_userLane {update : Update} {user : Nat}
    (lane : update.userLane = some user) : update.effectiveUser = some user := by
  unfold Update.userLane at lane
  split at lane
  · cases lane
  · exact lane

open UpdateProcessor in
/-- The stateful updates of a user are past their lock one at a time and in the order
in which they came, they hold one global slot at most, and the last one out leaves no
entry behind. -/
theorem stateful_updates_are_serialized (limit : Nat) (labels : List ProcessorLabel) (user : Nat) :
    let processor := run step (initial limit) labels
    (∀ id task other mate, processor.tasks.get? id = some task →
      processor.tasks.get? other = some mate → task.update.userLane = some user →
      mate.update.userLane = some user → task.stage ≠ .queued → mate.stage ≠ .queued →
      id = other) ∧
    (ofUser user processor.passes).Sublist (ofUser user processor.arrivals) ∧
    processor.slots (fun task => decide (task.update.userLane = some user)) ≤ 1 ∧
    ((∀ id task, processor.tasks.get? id = some task → task.update.effectiveUser ≠ some user) →
      processor.userLocks.get? user = none) := by
  obtain ⟨sound, counted⟩ := run_sound limit labels
  refine ⟨fun _ _ _ _ found also => sound.exclusive found also, sound.passed user, ?_, ?_⟩
  · apply Dict.total_le_one
    intro id task other mate found also holds too
    obtain ⟨working, mine⟩ := Bool.and_eq_true_iff.mp holds
    obtain ⟨busy, yours⟩ := Bool.and_eq_true_iff.mp too
    refine sound.exclusive found also (of_decide_eq_true mine) (of_decide_eq_true yours) ?_ ?_
    · rw [of_decide_eq_true working]
      exact UpdateStage.noConfusion
    · rw [of_decide_eq_true busy]
      exact UpdateStage.noConfusion
  · intro nobody
    cases there : (run step (initial limit) labels).userLocks.get? user with
    | none => rfl
    | some address =>
      obtain ⟨id, task, found, kind⟩ := sound.entry_of_update counted there
      exact absurd (effectiveUser_of_userLane kind) (nobody id task found)

def messageOf (user : Nat) : Update := ⟨some user, false, false, false, false, true⟩

def inlineQueryOf (user : Nat) : Update := ⟨some user, false, true, false, false, false⟩

open UpdateProcessor in
/-- An inline query of a user with a backlog takes a second slot, ahead of the backlog. -/
theorem inline_query_takes_a_second_slot :
    let processor := run step (initial 50)
      [.arrive (messageOf 7), .grant 0, .arrive (messageOf 7), .arrive (inlineQueryOf 7), .grant 2]
    (processor.tasks.get? 1).map UpdateTask.stage = some .queued ∧
      processor.slots (fun task => decide (task.update.effectiveUser = some 7)) = 2 := by
  decide +kernel

end BobbyBotique.Updates
