import BobbyBotique.UserState.Persistence

/-!
# Who owns an unsaved change

A change of the fields is owned by the debounce timer, by a task that has not
taken its snapshot, or by the save of a snapshot with it.  Each step hands it
on, except a cancellation that meets a task before its first step.
-/

namespace BobbyBotique.UserState

open Run

namespace Process

variable {J : Type}

/-- The states, their users and the tasks fit together, and snapshots are written
in the order in which they were taken. -/
structure Sound (process : Process J) : Prop where
  unique : ∀ state object, process.states.get? state = some object → object.userId ≠ 0 →
    process.users.get? object.userId = some state
  timed : ∀ user state, process.timers.get? user = some state →
    ∃ object, process.states.get? state = some object
  exist : ∀ task work, process.tasks.get? task = some work →
    ∃ object, process.states.get? work.state = some object
  locked : ∀ task state userId number snapshot,
    process.tasks.get? task = some ⟨state, .saving userId number snapshot⟩ →
      ∃ object, process.states.get? state = some object ∧ object.locked = some task ∧
        number < object.taken ∧ ∀ write ∈ process.written, write.state = state →
          write.number < number
  known : ∀ write ∈ process.written, ∃ object,
    process.states.get? write.state = some object ∧ write.number < object.taken
  ordered : process.written.Pairwise fun first second =>
    first.state = second.state → first.number < second.number

theorem initial_sound : (initial : Process J).Sound :=
  ⟨fun _ _ absurd => (nomatch absurd), fun _ _ absurd => (nomatch absurd),
    fun _ _ absurd => (nomatch absurd),
    fun _ _ _ _ _ absurd => (nomatch absurd), fun _ absurd => (List.not_mem_nil absurd).elim,
    List.Pairwise.nil⟩

theorem schedule_sound {process : Process J} (sound : process.Sound) (state : Nat) :
    (process.schedule state).Sound := by
  unfold schedule
  split
  · exact sound
  · split
    · exact sound
    · next object found _ =>
        refine ⟨sound.unique, ?_, sound.exist, sound.locked, sound.known, sound.ordered⟩
        intro user other timer
        rw [Dict.get?_set] at timer
        split at timer
        · cases timer
          exact ⟨object, found⟩
        · exact sound.timed user other timer

theorem drop_sound {process : Process J} (sound : process.Sound) (task : Nat) :
    (process.drop task).Sound :=
  ⟨sound.unique, sound.timed,
    fun other work found => sound.exist other work (Dict.get?_del_eq_some.mp found).2,
    fun other state userId number snapshot found =>
      sound.locked other state userId number snapshot (Dict.get?_del_eq_some.mp found).2,
    sound.known, sound.ordered⟩

theorem write_release_sound {process : Process J} (sound : process.Sound) {wrote : Bool}
    {task state userId number : Nat} {snapshot : Fields J} {object changed : StateObject J}
    (saving : process.tasks.get? task = some ⟨state, .saving userId number snapshot⟩)
    (found : process.states.get? state = some object) (same : changed.userId = object.userId)
    (taken : changed.taken = object.taken) :
    ((process.write wrote state userId number snapshot).release task state changed).Sound := by
  obtain ⟨_, known, owner, bound, later⟩ := sound.locked task state userId number snapshot saving
  rw [found] at known
  cases known
  have h0 := sound.timed
  have h1 := sound.unique
  have h2 := sound.exist
  have h3 := sound.locked
  have h4 := sound.known
  have h5 := sound.ordered
  cases wrote
  · constructor <;> simp only [write, release, Dict.get?_set, Dict.get?_del] <;> grind
  · constructor <;>
      simp only [write, release, Dict.get?_set, Dict.get?_del, if_true, List.pairwise_append] <;>
      grind

theorem abandon_sound {process : Process J} (sound : process.Sound) {wrote : Bool}
    {task state userId number : Nat} {snapshot : Fields J}
    (saving : process.tasks.get? task = some ⟨state, .saving userId number snapshot⟩) :
    (process.abandon wrote task state userId number snapshot).Sound := by
  unfold abandon
  split
  · exact sound
  · next object found =>
      exact schedule_sound (write_release_sound sound saving found rfl rfl) state

theorem detach_sound {process : Process J} (sound : process.Sound) {user state : Nat}
    {object : StateObject J} (mine : process.users.get? user = some state)
    (found : process.states.get? state = some object) :
    (process.detach user state object).Sound := by
  have timed := sound.timed
  have unique := sound.unique
  have exist := sound.exist
  have locked := sound.locked
  have known := sound.known
  constructor <;> simp only [detach, Dict.get?_set, Dict.get?_del]
  case ordered => exact sound.ordered
  all_goals grind

theorem step_sound (process : Process J) (label : ProcessLabel J) (sound : process.Sound) :
    (process.step label).Sound := by
  have timed := sound.timed
  have unique := sound.unique
  have exist := sound.exist
  have locked := sound.locked
  have known := sound.known
  cases label with
  | load user state =>
    dsimp only [step]
    split
    · split
      · exact sound
      · constructor <;> simp only [Dict.get?_set]
        case ordered => exact sound.ordered
        all_goals grind
    · exact sound
  | set user setter =>
    dsimp only [step]
    split
    · exact sound
    split
    · exact sound
    split
    · exact sound
    apply schedule_sound
    constructor <;> simp only [Dict.get?_set]
    case ordered => exact sound.ordered
    all_goals grind
  | fire user task refused =>
    dsimp only [step]
    split
    · exact sound
    split
    · exact schedule_sound sound _
    split
    · exact sound
    constructor <;> simp only [Dict.get?_set, Dict.get?_del]
    case ordered => exact sound.ordered
    all_goals grind
  | start task =>
    dsimp only [step]
    split
    · constructor <;> simp only [Dict.get?_set]
      case ordered => exact sound.ordered
      all_goals grind
    · exact sound
  | acquire task =>
    dsimp only [step]
    split
    · split
      · exact sound
      split
      · exact sound
      split
      · exact drop_sound sound task
      constructor <;> simp only [Dict.get?_set]
      case ordered => exact sound.ordered
      all_goals grind
    · exact sound
  | succeed task =>
    dsimp only [step]
    split
    · next saving =>
        split
        · exact sound
        · next found => exact write_release_sound sound saving found rfl rfl
    · exact sound
  | failSave task wrote =>
    dsimp only [step]
    split
    · next saving => exact abandon_sound sound saving
    · exact sound
  | cancel task wrote =>
    dsimp only [step]
    split
    · exact drop_sound sound task
    · exact schedule_sound (drop_sound sound task) _
    · next saving => exact abandon_sound sound saving
    · exact sound
  | purge user =>
    have quiet : Sound { process with timers := process.timers.del user } :=
      ⟨sound.unique, fun other state timer =>
        sound.timed other state (Dict.get?_del_eq_some.mp timer).2,
        sound.exist, sound.locked, sound.known, sound.ordered⟩
    dsimp only [step]
    split
    · exact quiet
    · next mine =>
        split
        · exact quiet
        · next found => exact detach_sound quiet mine found
  | evict user =>
    dsimp only [step]
    split
    · exact sound
    · next mine =>
        split
        · exact sound
        · next found =>
            split
            · exact detach_sound sound mine found
            · exact sound

/-! ## No change is forgotten -/

/-- A save of the state is to come, or the save under way and the saved snapshot
are of the fields as they are. -/
def Safe (process : Process J) (state : Nat) : Prop :=
  ∀ object, process.states.get? state = some object → object.userId ≠ 0 →
    process.Pending state object ∨
      (∀ snapshot, process.Saves state snapshot → snapshot = object.fields) ∧
        (object.saved = object.fields ∨ process.Saves state object.fields)

/-- A step that leaves the state, its timer and its tasks alone keeps it safe. -/
theorem Safe.frame {process next : Process J} {state : Nat} (safe : process.Safe state)
    (states : next.states.get? state = process.states.get? state)
    (timers : ∀ object, process.states.get? state = some object → object.userId ≠ 0 →
      process.timers.get? object.userId = some state → next.timers.get? object.userId = some state)
    (tasks : ∀ task stage, next.tasks.get? task = some ⟨state, stage⟩ ↔
      process.tasks.get? task = some ⟨state, stage⟩) : next.Safe state := by
  intro object found owned
  rw [states] at found
  unfold Pending Saves
  simp only [tasks]
  rcases safe object found owned with (timer | task) | settled
  · exact .inl (.inl (timers object found owned timer))
  · exact .inl (.inr task)
  · exact .inr settled

/-- Work on one state leaves the tasks of the others alone. -/
theorem tasks_set {tasks : Dict Nat (Task J)} {task state other : Nat} {stage : Stage J}
    (work : tasks.get? task = some ⟨state, stage⟩) (ne : other ≠ state) (later : Stage J)
    (name : Nat) (found : Stage J) :
    (tasks.set task ⟨state, later⟩).get? name = some ⟨other, found⟩ ↔
      tasks.get? name = some ⟨other, found⟩ := by
  rw [Dict.get?_set]
  grind

theorem tasks_del {tasks : Dict Nat (Task J)} {task state other : Nat} {stage : Stage J}
    (work : tasks.get? task = some ⟨state, stage⟩) (ne : other ≠ state)
    (name : Nat) (found : Stage J) :
    (tasks.del task).get? name = some ⟨other, found⟩ ↔ tasks.get? name = some ⟨other, found⟩ := by
  rw [Dict.get?_del]
  grind

/-- The timer of a user is of no other state. -/
theorem timers_del {process : Process J} (sound : process.Sound) {user other : Nat}
    (elsewhere : process.users.get? user ≠ some other) (object : StateObject J)
    (found : process.states.get? other = some object) (owned : object.userId ≠ 0)
    (timer : process.timers.get? object.userId = some other) :
    (process.timers.del user).get? object.userId = some other := by
  have mine := sound.unique other object found owned
  rw [Dict.get?_del]
  split
  · next same =>
      subst same
      exact absurd mine elsewhere
  · exact timer

/-- A state just scheduled is safe, and the others stay so. -/
theorem schedule_safe {process : Process J} (sound : process.Sound) {state : Nat}
    (safe : ∀ other, other ≠ state → process.Safe other) (other : Nat) :
    (process.schedule state).Safe other := by
  have unique := sound.unique
  have same : (process.schedule state).states = process.states ∧
      (process.schedule state).tasks = process.tasks := by
    unfold schedule
    split
    · exact ⟨rfl, rfl⟩
    · split
      · exact ⟨rfl, rfl⟩
      · exact ⟨rfl, rfl⟩
  by_cases mine : other = state
  · subst mine
    intro object found owned
    rw [same.1] at found
    left
    left
    simp only [schedule, found, if_neg owned, Dict.get?_set_self]
  · apply (safe other mine).frame
    · rw [same.1]
    · intro object found owned timer
      unfold schedule
      split
      · exact timer
      · split
        · exact timer
        · rw [Dict.get?_set]
          grind
    · intro task stage
      rw [same.2]

/-- The end of a task that saved or may have saved leaves the other states alone. -/
theorem release_safe {process : Process J} {task state userId number : Nat} {wrote : Bool}
    {snapshot : Fields J} {stage : Stage J} {object : StateObject J}
    (work : process.tasks.get? task = some ⟨state, stage⟩) {other : Nat} (ne : other ≠ state)
    (safe : process.Safe other) :
    ((process.write wrote state userId number snapshot).release task state object).Safe other := by
  cases wrote
  all_goals
    apply safe.frame
    · simp only [write, release]
      exact Dict.get?_set_ne _ _ ne
    · exact fun _ _ _ timer => timer
    · exact tasks_del work ne

theorem abandon_safe {process : Process J} (sound : process.Sound) {wrote : Bool}
    {task state userId number : Nat} {snapshot : Fields J} (safe : ∀ other, process.Safe other)
    (saving : process.tasks.get? task = some ⟨state, .saving userId number snapshot⟩)
    (other : Nat) :
    (process.abandon wrote task state userId number snapshot).Safe other := by
  unfold abandon
  split
  · exact safe other
  · next object found =>
      apply schedule_safe (write_release_sound sound saving found rfl rfl)
      intro other ne
      exact release_safe saving ne (safe other)

theorem detach_safe {process : Process J} {user state : Nat} {object : StateObject J}
    (safe : ∀ other, process.Safe other) (other : Nat) :
    (process.detach user state object).Safe other := by
  by_cases mine : other = state
  · subst mine
    intro changed found owned
    simp only [detach, Dict.get?_set_self, Option.some.injEq] at found
    subst found
    exact absurd rfl owned
  · exact (safe other).frame (Dict.get?_set_ne _ _ mine) (fun _ _ _ timer => timer)
      fun _ _ => Iff.rfl

/-- The cancellation finds a task that has not taken its first step. -/
def cancelsQueued (process : Process J) : ProcessLabel J → Bool
  | .cancel task _ =>
    match process.tasks.get? task with
    | some ⟨_, .queued⟩ => true
    | _ => false
  | _ => false

/-- A task that takes its snapshot owns the fields until its save ends. -/
theorem acquire_safe {process : Process J} (sound : process.Sound)
    (safe : ∀ state, process.Safe state) (task other : Nat) :
    (process.step (.acquire task)).Safe other := by
  have locked := sound.locked
  dsimp only [step]
  split
  · next state waiting =>
      split
      · exact safe other
      next object found =>
      split
      · exact safe other
      next free =>
      split
      · next erased =>
          by_cases mine : other = state
          · intro changed known owned
            subst mine
            exact absurd (by grind [drop]) owned
          · exact (safe other).frame rfl (fun _ _ _ timer => timer) (tasks_del waiting mine)
      · by_cases mine : other = state
        · subst mine
          intro changed known owned
          simp only [Dict.get?_set_self, Option.some.injEq] at known
          subst known
          right
          constructor
          · rintro snapshot ⟨name, userId, number, saving⟩
            simp only [Dict.get?_set] at saving
            grind
          · right
            exact ⟨task, _, _, Dict.get?_set_self _ _ _⟩
        · exact (safe other).frame (Dict.get?_set_ne _ _ mine) (fun _ _ _ timer => timer)
            (tasks_set waiting mine _)
  · exact safe other

/-- A save that succeeds leaves no change behind that nothing else owns. -/
theorem succeed_safe {process : Process J} (sound : process.Sound)
    (safe : ∀ state, process.Safe state) (task other : Nat) :
    (process.step (.succeed task)).Safe other := by
  have locked := sound.locked
  dsimp only [step]
  split
  · next state userId number snapshot saving =>
      split
      · exact safe other
      next object found =>
      by_cases mine : other = state
      · subst mine
        intro changed known owned
        simp only [release, Dict.get?_set_self, Option.some.injEq] at known
        subst known
        rcases safe other object found owned with (timer | ⟨name, stage⟩) | ⟨current, _⟩
        · exact .inl (.inl timer)
        · left
          right
          refine ⟨name, ?_⟩
          simp only [write, release, if_true, Dict.get?_del]
          grind
        · right
          have same := current snapshot ⟨task, userId, number, saving⟩
          constructor
          · rintro later ⟨name, userId', number', going⟩
            simp only [write, release, if_true, Dict.get?_del] at going
            grind
          · exact .inl same
      · exact release_safe saving mine (safe other)
  · exact safe other

theorem load_safe {process : Process J} (sound : process.Sound)
    (safe : ∀ state, process.Safe state) (user state other : Nat) :
    (process.step (.load user state)).Safe other := by
  have timed := sound.timed
  have exist := sound.exist
  dsimp only [step]
  split
  · next fresh _ =>
      split
      · exact safe other
      · by_cases mine : other = state
        · subst mine
          intro object found owned
          simp only [Dict.get?_set_self, Option.some.injEq] at found
          subst found
          right
          constructor
          · rintro snapshot ⟨task, userId, number, saving⟩
            grind
          · exact .inl rfl
        · exact (safe other).frame (Dict.get?_set_ne _ _ mine) (fun _ _ _ timer => timer)
            fun _ _ => Iff.rfl
  · exact safe other

theorem set_safe {process : Process J} (sound : process.Sound)
    (safe : ∀ state, process.Safe state) (user : Nat) (setter : Setter J) (other : Nat) :
    (process.step (.set user setter)).Safe other := by
  have timed := sound.timed
  have unique := sound.unique
  have exist := sound.exist
  have locked := sound.locked
  dsimp only [step]
  split
  · exact safe other
  next state mine =>
  split
  · exact safe other
  next object found =>
  split
  · exact safe other
  apply schedule_safe
  · constructor <;> simp only [Dict.get?_set]
    case ordered => exact sound.ordered
    case known => exact fun write among => by have := sound.known write among; grind
    all_goals grind
  · intro other ne
    exact (safe other).frame (Dict.get?_set_ne _ _ ne) (fun _ _ _ timer => timer)
      fun _ _ => Iff.rfl

theorem fire_safe {process : Process J} (sound : process.Sound)
    (safe : ∀ state, process.Safe state) (user task : Nat) (refused : Bool) (other : Nat) :
    (process.step (.fire user task refused)).Safe other := by
  have timed := sound.timed
  have unique := sound.unique
  have exist := sound.exist
  have locked := sound.locked
  dsimp only [step]
  split
  · exact safe other
  next state timer =>
  split
  · exact schedule_safe sound (fun other _ => safe other) other
  split
  · exact safe other
  next free =>
  by_cases mine : other = state
  · subst mine
    intro object found owned
    left
    right
    exact ⟨task, .inl (Dict.get?_set_self _ _ _)⟩
  · refine (safe other).frame rfl ?_ ?_
    · intro object found owned own
      simp only [Dict.get?_del]
      grind
    · intro name stage
      simp only [Dict.get?_set]
      grind

theorem purge_safe {process : Process J} (sound : process.Sound)
    (safe : ∀ state, process.Safe state) (user other : Nat) :
    (process.step (.purge user)).Safe other := by
  dsimp only [step]
  split
  · next gone =>
      refine (safe other).frame rfl (timers_del sound ?_) fun _ _ => Iff.rfl
      rw [gone]
      rintro ⟨⟩
  next state mine =>
  split
  · next lost =>
      refine (safe other).frame rfl (fun object found => timers_del sound ?_ object found)
        fun _ _ => Iff.rfl
      rw [mine]
      intro same
      rw [Option.some.inj same, found] at lost
      cases lost
  next object found =>
  by_cases same : other = state
  · subst same
    intro changed known owned
    simp only [detach, Dict.get?_set_self, Option.some.injEq] at known
    subst known
    exact absurd rfl owned
  · refine (safe other).frame (Dict.get?_set_ne _ _ same) (timers_del sound ?_)
      fun _ _ => Iff.rfl
    rw [mine]
    exact fun equal => same (Option.some.inj equal).symm

theorem step_safe {process : Process J} (sound : process.Sound) {label : ProcessLabel J}
    (started : process.cancelsQueued label = false) (safe : ∀ state, process.Safe state)
    (other : Nat) :
    (process.step label).Safe other := by
  cases label with
  | load user state => exact load_safe sound safe user state other
  | set user setter => exact set_safe sound safe user setter other
  | fire user task refused => exact fire_safe sound safe user task refused other
  | start task =>
    dsimp only [step]
    split
    · next state queued =>
        by_cases mine : other = state
        · subst mine
          intro object found owned
          left
          right
          exact ⟨task, .inr (Dict.get?_set_self _ _ _)⟩
        · exact (safe other).frame rfl (fun _ _ _ timer => timer) (tasks_set queued mine _)
    · exact safe other
  | acquire task => exact acquire_safe sound safe task other
  | succeed task => exact succeed_safe sound safe task other
  | failSave task wrote =>
    dsimp only [step]
    split
    · next saving => exact abandon_safe sound safe saving other
    · exact safe other
  | cancel task wrote =>
    dsimp only [step]
    split
    · next state queued =>
        simp only [cancelsQueued, queued] at started
        cases started
    · next state waiting =>
        apply schedule_safe (drop_sound sound task)
        intro other ne
        exact (safe other).frame rfl (fun _ _ _ timer => timer) (tasks_del waiting ne)
    · next saving => exact abandon_safe sound safe saving other
    · exact safe other
  | purge user => exact purge_safe sound safe user other
  | evict user =>
    dsimp only [step]
    split
    · exact safe other
    · split
      · exact safe other
      · split
        · exact detach_safe safe other
        · exact safe other

/-! ## Erased states -/

theorem schedule_states (process : Process J) (state : Nat) :
    (process.schedule state).states = process.states := by
  unfold schedule
  split
  · rfl
  · split
    · rfl
    · rfl

theorem write_states (process : Process J) (wrote : Bool) (state userId number : Nat)
    (snapshot : Fields J) :
    (process.write wrote state userId number snapshot).states = process.states := by
  cases wrote
  · rfl
  · rfl

/-- The state has no user any more, and so many snapshots of it were taken. -/
def Detached (process : Process J) (state taken : Nat) : Prop :=
  ∃ object, process.states.get? state = some object ∧ object.userId = 0 ∧ object.taken = taken

/-- A change of a state that keeps its user and its count keeps every detached state. -/
theorem Detached.set {process next : Process J} {state taken name : Nat}
    (detached : process.Detached state taken) {object changed : StateObject J}
    (found : process.states.get? name = some object)
    (states : next.states = process.states.set name changed)
    (user : object.userId = 0 → changed.userId = 0)
    (count : object.userId = 0 → changed.taken = object.taken) : next.Detached state taken := by
  obtain ⟨old, known, erased, same⟩ := detached
  unfold Detached
  rw [states]
  by_cases mine : state = name
  · subst mine
    rw [found] at known
    cases known
    exact ⟨changed, Dict.get?_set_self _ _ _, user erased, (count erased).trans same⟩
  · exact ⟨old, (Dict.get?_set_ne _ _ mine).trans known, erased, same⟩

theorem abandon_detached {process : Process J} {state taken : Nat}
    (detached : process.Detached state taken) {wrote : Bool}
    {task name userId number : Nat} {snapshot : Fields J} :
    (process.abandon wrote task name userId number snapshot).Detached state taken := by
  unfold abandon
  split
  · exact detached
  · next object found =>
      have states : ((process.write wrote name userId number snapshot).release task name
          object).states = process.states.set name { object with locked := none } := by
        dsimp only [release]
        rw [write_states]
      exact detached.set found ((schedule_states _ _).trans states) id fun _ => rfl

/-- A detached state stays detached, and no further snapshot of it is taken. -/
theorem step_detached {process : Process J} {state taken : Nat} (label : ProcessLabel J)
    (detached : process.Detached state taken) : (process.step label).Detached state taken := by
  cases label with
  | load user name =>
    dsimp only [step]
    split
    · next fresh =>
        split
        · exact detached
        · obtain ⟨object, found, rest⟩ := detached
          have ne : state ≠ name := by rintro rfl; rw [found] at fresh; cases fresh
          exact ⟨object, (Dict.get?_set_ne _ _ ne).trans found, rest⟩
    · exact detached
  | set user setter =>
    dsimp only [step]
    split
    · exact detached
    split
    · exact detached
    next found =>
    split
    · exact detached
    exact detached.set found (schedule_states _ _) id fun _ => rfl
  | fire user task refused =>
    dsimp only [step]
    split
    · exact detached
    split
    · unfold Detached
      rw [schedule_states]
      exact detached
    split
    · exact detached
    · exact detached
  | start task =>
    dsimp only [step]
    split
    · exact detached
    · exact detached
  | acquire task =>
    dsimp only [step]
    split
    · split
      · exact detached
      next found =>
      split
      · exact detached
      split
      · exact detached
      next owned =>
      exact detached.set found rfl (fun erased => absurd erased owned)
        fun erased => absurd erased owned
    · exact detached
  | succeed task =>
    dsimp only [step]
    split
    · split
      · exact detached
      next found =>
      exact detached.set found rfl id fun _ => rfl
    · exact detached
  | failSave task wrote =>
    dsimp only [step]
    split
    · exact abandon_detached detached
    · exact detached
  | cancel task wrote =>
    dsimp only [step]
    split
    · exact detached
    · unfold Detached
      rw [schedule_states]
      exact detached
    · exact abandon_detached detached
    · exact detached
  | purge user =>
    dsimp only [step]
    split
    · exact detached
    split
    · exact detached
    next found =>
    exact detached.set found rfl (fun _ => rfl) fun _ => rfl
  | evict user =>
    dsimp only [step]
    split
    · exact detached
    split
    · exact detached
    next found =>
    split
    · exact detached.set found rfl (fun _ => rfl) fun _ => rfl
    · exact detached

/-- The erasure of a user detaches the state. -/
theorem purge_detached {process : Process J} {user state : Nat}
    {object : StateObject J} (mine : process.users.get? user = some state)
    (found : process.states.get? state = some object) :
    (process.step (.purge user)).Detached state object.taken := by
  simp only [step, mine, found]
  exact ⟨{ object with userId := 0 }, Dict.get?_set_self _ _ _, rfl, rfl⟩

/-! ## The claim over runs -/

/-- Every change of a loaded user's fields waits for its timer, or for a task that
has not taken its snapshot, or is being saved. -/
def Remembered (process : Process J) : Prop :=
  ∀ state object, process.states.get? state = some object → object.userId ≠ 0 →
    object.fields ≠ object.saved →
    process.Pending state object ∨ process.Saves state object.fields

/-- The writes of one state come in the order in which its snapshots were taken. -/
def Ordered (process : Process J) : Prop :=
  process.written.Pairwise fun first second =>
    first.state = second.state → first.number < second.number

theorem run_sound (labels : List (ProcessLabel J)) : (run step initial labels).Sound :=
  run_keeps Sound step_sound initial_sound labels

theorem run_safe {labels : List (ProcessLabel J)}
    (started : Along step (fun process label => process.cancelsQueued label = false) initial labels)
    (state : Nat) : (run step initial labels).Safe state :=
  (started.carries (fun process : Process J => process.Sound ∧ ∀ state, process.Safe state)
    ⟨initial_sound, fun _ _ absurd => (nomatch absurd)⟩
    fun process label good started =>
      ⟨step_sound process label good.1, step_safe good.1 started good.2⟩).2 state

/-- The run in which the drain cancels a task between its submission and its first step. -/
def forgotten : List (ProcessLabel Unit) :=
  [.load 7 1, .set 7 (.setTarotMode true), .fire 7 2 false, .cancel 2 false]

end Process

end BobbyBotique.UserState
