import BobbyBotique.Background.TaskManager
import BobbyBotique.Foundation.Entries

/-!
# The books of the background tasks

What holds in every state that a run of the task manager comes to, whatever the order of
submissions, steps of tasks, cancellations and drains.
-/

namespace BobbyBotique.Background

open Entries

/-! ## One job -/

/-- What the variables of a job say in each phase of its wrapper. -/
def Job.Formed (job : Job) : Prop :=
  match job.phase with
  | .created => job.wrapperStarted = false ∧ job.terminalEmitted = false ∧ job.finished = [] ∧
      job.discarded = false ∧ job.attempts = 0
  | .attempt | .delay => job.wrapperStarted = true ∧ job.terminalEmitted = false ∧
      job.finished = [] ∧ job.discarded = false ∧ (job.attempts : Int) ≤ job.retry
  | .errorCallback => job.wrapperStarted = true ∧ job.terminalEmitted = true ∧
      job.finished.length = 1 ∧ job.discarded = false
  | .done cancelled =>
    if job.wrapperStarted then
      job.finished.length ≤ 1 ∧ (0 ≤ job.retry → job.finished.length = 1)
    else
      cancelled = true ∧ job.terminalEmitted = false ∧
        job.finished.length = if job.discarded then 1 else 0

namespace Job

variable {job : Job}

theorem accepted_formed (coro : Option Nat) (retry : Int) : (accepted coro retry).Formed :=
  ⟨rfl, rfl, rfl, rfl, rfl⟩

theorem Formed.alive (formed : job.Formed) (alive : job.phase.isDone = false) :
    job.discarded = false := by
  unfold Formed at formed
  cases phase : job.phase with
  | created | attempt | delay => rw [phase] at formed; exact formed.2.2.2.1
  | errorCallback => rw [phase] at formed; exact formed.2.2.2
  | done cancelled =>
    rw [phase] at alive
    cases alive

/-- What a step of the wrapper keeps. -/
structure Advances (job next : Job) : Prop where
  formed : next.Formed
  coro : next.coro = job.coro
  discarded : next.discarded = false

theorem nextAttempt_advances (started : job.wrapperStarted = true)
    (quiet : job.terminalEmitted = false ∧ job.finished = [] ∧ job.discarded = false)
    (first : job.retry < job.attempts → job.retry < 0) : job.Advances job.nextAttempt := by
  obtain ⟨emitted, none, kept⟩ := quiet
  unfold nextAttempt
  split
  · next more => exact ⟨⟨started, emitted, none, kept, more⟩, rfl, kept⟩
  · next past =>
      refine ⟨?_, rfl, kept⟩
      have negative := first (by omega)
      simp only [Formed, started, if_true, none, List.length_nil]
      omega

theorem start_advances (formed : job.Formed) (phase : job.phase = .created) :
    job.Advances job.start := by
  simp only [Formed, phase] at formed
  obtain ⟨idle, emitted, none, kept, zero⟩ := formed
  unfold start
  split
  · refine ⟨?_, rfl, kept⟩
    simp [Formed, idle, emitted, none, kept]
  · have next := @nextAttempt_advances { job with wrapperStarted := true } rfl
      ⟨emitted, none, kept⟩ (by simp [zero])
    exact ⟨next.formed, next.coro, next.discarded⟩

theorem nextAttempt_started : job.nextAttempt.wrapperStarted = job.wrapperStarted := by
  unfold nextAttempt
  split <;> rfl

theorem start_started (formed : job.Formed) (phase : job.phase = .created) :
    job.start.wrapperStarted = !job.cancelling := by
  simp only [Formed, phase] at formed
  cases cancelling : job.cancelling with
  | true =>
    rw [start, if_pos cancelling]
    exact formed.1
  | false =>
    rw [start, if_neg (by simp [cancelling]), nextAttempt_started]
    rfl

theorem targetEnded_advances (formed : job.Formed) (phase : job.phase = .attempt)
    (ending : Ending) : job.Advances (job.targetEnded ending) := by
  simp only [Formed, phase] at formed
  obtain ⟨started, emitted, none, kept, within⟩ := formed
  cases ending with
  | returns =>
    refine ⟨?_, rfl, kept⟩
    simp [Formed, targetEnded, started, none]
  | raises awaits =>
    unfold targetEnded
    dsimp only
    split
    · next more => exact ⟨⟨started, emitted, none, kept, more⟩, rfl, kept⟩
    · refine ⟨?_, rfl, kept⟩
      cases awaits with
      | true => exact ⟨started, rfl, by simp [none], kept⟩
      | false => simp [Formed, started, none]
  | cancelled =>
    have next : job.emitCancelled = { job with finished := job.finished ++ [.cancelled] } := by
      rw [emitCancelled, emitted]
      rfl
    refine ⟨?_, ?_, ?_⟩
    · simp [Formed, targetEnded, next, started, none]
    · simp [targetEnded, next]
    · simp [targetEnded, next, kept]

theorem targetEnded_started (ending : Ending) :
    (job.targetEnded ending).wrapperStarted = job.wrapperStarted := by
  cases ending with
  | returns => rfl
  | raises awaits =>
    unfold targetEnded
    dsimp only
    split <;> rfl
  | cancelled =>
    unfold targetEnded emitCancelled
    dsimp only
    split <;> rfl

theorem interrupted_started : job.interrupted.wrapperStarted = job.wrapperStarted := by
  unfold interrupted emitCancelled
  dsimp only
  split <;> rfl

theorem retry_advances (formed : job.Formed) (phase : job.phase = .delay) :
    job.Advances job.nextAttempt := by
  simp only [Formed, phase] at formed
  obtain ⟨started, emitted, none, kept, within⟩ := formed
  exact nextAttempt_advances started ⟨emitted, none, kept⟩ (by omega)

theorem interrupted_advances (formed : job.Formed)
    (phase : job.phase = .delay ∨ job.phase = .errorCallback) :
    job.Advances job.interrupted := by
  rcases phase with phase | phase
  · simp only [Formed, phase] at formed
    obtain ⟨started, emitted, none, kept, within⟩ := formed
    refine ⟨?_, ?_, ?_⟩
    · simp [Formed, interrupted, emitCancelled, emitted, started, none]
    · simp [interrupted, emitCancelled, emitted]
    · simp [interrupted, emitCancelled, emitted, kept]
  · simp only [Formed, phase] at formed
    obtain ⟨started, emitted, one, kept⟩ := formed
    refine ⟨?_, ?_, ?_⟩
    · simp [Formed, interrupted, emitCancelled, emitted, started, one]
    · simp [interrupted, emitCancelled, emitted]
    · simp [interrupted, emitCancelled, emitted, kept]

theorem callbackEnded_advances (formed : job.Formed) (phase : job.phase = .errorCallback) :
    job.Advances { job with phase := .done false } := by
  simp only [Formed, phase] at formed
  obtain ⟨started, emitted, one, kept⟩ := formed
  refine ⟨?_, rfl, kept⟩
  simp [Formed, started, one]

theorem cancelling_advances (formed : job.Formed) (alive : job.phase.isDone = false) :
    job.Advances { job with cancelling := true } :=
  ⟨formed, rfl, formed.alive alive⟩

theorem discard_formed (formed : job.Formed) (done : job.phase.isDone = true)
    (kept : job.discarded = false) : job.discard.Formed := by
  cases phase : job.phase with
  | done cancelled =>
    simp only [Formed, phase] at formed
    cases started : job.wrapperStarted with
    | true =>
      rw [started, if_pos rfl] at formed
      simpa [Formed, discard, phase, started] using formed
    | false =>
      simp [started, kept] at formed
      obtain ⟨rfl, emitted, none⟩ := formed
      simp [Formed, discard, phase, started, emitCancelled, emitted, none]
  | created | attempt | delay | errorCallback => rw [phase] at done; cases done

theorem discard_fields : job.discard.discarded = true ∧ job.discard.coro = job.coro := by
  unfold discard emitCancelled
  split
  · split <;> exact ⟨rfl, rfl⟩
  · exact ⟨rfl, rfl⟩

theorem discard_phase : job.discard.phase = job.phase := by
  unfold discard emitCancelled
  split
  · split <;> rfl
  · rfl

/-- A job emits one terminal event at most, and has emitted it when it is counted off. -/
theorem Formed.finished (formed : job.Formed) : job.finished.length ≤ 1 ∧
    (job.discarded = true → 0 ≤ job.retry → job.finished.length = 1) := by
  unfold Formed at formed
  cases phase : job.phase with
  | created | attempt | delay => rw [phase] at formed; simp [formed.2.2.1, formed.2.2.2.1]
  | errorCallback => rw [phase] at formed; simp [formed.2.2.1]
  | done cancelled =>
    rw [phase] at formed
    dsimp only at formed
    split at formed
    · exact ⟨formed.1, fun _ => formed.2⟩
    · obtain ⟨-, -, count⟩ := formed
      rw [count]
      split <;> simp_all

end Job

/-! ## The books -/

theorem countP_set {A : Type} (holds : A → Bool) {items : List A} {place : Nat} {old : A}
    (there : items[place]? = some old) (new : A) :
    (items.set place new).countP holds + (holds old).toNat =
      items.countP holds + (holds new).toNat := by
  have weight : ∀ flag : Bool, (if flag = true then 1 else 0) = flag.toNat := by decide
  induction items generalizing place with
  | nil => simp at there
  | cons item rest ih =>
    rw [List.countP_cons, weight]
    cases place with
    | zero =>
      obtain rfl : item = old := by simpa using there
      rw [List.set_cons_zero, List.countP_cons, weight]
      omega
    | succ place =>
      have later := @ih place (by simpa using there)
      rw [List.set_cons_succ, List.countP_cons, weight]
      omega

/-- The drain has come to its cancellation phase. -/
def Drain.Closing (drain : Drain) : Prop :=
  drain.cancels = true ∨ ∃ active, drain.phase = .cancelling active

namespace TaskManager

/-- What the counters, the set and the jobs of a manager say of each other. -/
structure Books (manager : TaskManager) : Prop where
  jobs : ∀ job ∈ manager.jobs, job.Formed
  nodup : manager.tasks.Nodup
  bounded : manager.tasks.length ≤ maxTasks
  known : ∀ place ∈ manager.tasks, place < manager.jobs.length
  tracked : ∀ place job, manager.jobs[place]? = some job → job.phase.isDone = false →
    place ∈ manager.tasks
  running : manager.runningCount = manager.jobs.countP Job.counted
  coros : ∀ (own : Nat) (coro : Coro), manager.coros[own]? = some coro → coro.settled = false →
    ∃ job ∈ manager.jobs, job.coro = some own ∧ job.discarded = false
  closed : ∀ drain ∈ manager.drains, drain.Closing → manager.accepting = false

variable {manager : TaskManager} {place : Nat} {job next : Job}

theorem Books.at (books : manager.Books) (there : manager.jobs[place]? = some job) :
    job.Formed := books.jobs job (List.mem_of_getElem? there)

/-- A step of the wrapper keeps the books if the count follows. -/
theorem Books.put (books : manager.Books) (there : manager.jobs[place]? = some job)
    (alive : job.phase.isDone = false) (advances : job.Advances next) (coro : Coro → Coro)
    (count : Int)
    (counts : count + job.wrapperStarted.toNat = manager.runningCount + next.wrapperStarted.toNat) :
    Books { manager.put place next coro with runningCount := count } := by
  obtain ⟨inside, -⟩ := List.getElem?_eq_some_iff.mp there
  have kept := (books.at there).alive alive
  have mine := books.tracked place job there alive
  constructor
  · intro other member
    rcases List.mem_or_eq_of_mem_set member with old | rfl
    · exact books.jobs other old
    · exact advances.formed
  · exact books.nodup
  · exact books.bounded
  · intro other member
    have within := books.known other member
    simpa [TaskManager.put] using within
  · intro other held found going
    by_cases same : place = other
    · exact same ▸ mine
    · refine books.tracked other held ?_ going
      simpa [TaskManager.put, List.getElem?_set_ne same] using found
  · have total := countP_set Job.counted there next
    have before : Job.counted job = job.wrapperStarted := by simp [Job.counted, kept]
    have after : Job.counted next = next.wrapperStarted := by
      simp [Job.counted, advances.discarded]
    rw [before, after] at total
    have running := books.running
    change count = ((manager.jobs.set place next).countP Job.counted : Int)
    omega
  · intro own coro' found unsettled
    have old : ∃ coro'', manager.coros[own]? = some coro'' ∧
        (coro''.settled = false ∨ next.coro = some own) := by
      unfold TaskManager.put at found
      dsimp only at found
      split at found
      · next mine' target =>
          rw [List.getElem?_modify] at found
          obtain ⟨coro'', stands, changed⟩ := Option.map_eq_some_iff.mp found
          by_cases same : mine' = own
          · exact ⟨coro'', stands, .inr (target.trans (congrArg some same))⟩
          · rw [if_neg same] at changed
            exact ⟨coro'', stands, .inl (by rw [changed]; exact unsettled)⟩
      · exact ⟨coro', found, .inl unsettled⟩
    obtain ⟨coro'', stands, unsettled'⟩ := old
    have here : next ∈ manager.jobs.set place next := by
      exact List.mem_of_getElem? (List.getElem?_set_self inside)
    rcases unsettled' with unsettled' | target
    · obtain ⟨holder, member, owner, going⟩ := books.coros own coro'' stands unsettled'
      obtain ⟨other, found'⟩ := List.mem_iff_getElem?.mp member
      by_cases same : place = other
      · subst same
        rw [there] at found'
        cases found'
        exact ⟨next, here, advances.coro.trans owner, advances.discarded⟩
      · refine ⟨holder, @List.mem_of_getElem? _ _ other _ ?_, owner, going⟩
        rw [← found']
        exact List.getElem?_set_ne same
    · exact ⟨next, here, target, advances.discarded⟩
  · exact books.closed

/-- The set may lose tasks that are done. -/
theorem Books.track (books : manager.Books) {tasks : List Nat}
    (fewer : tasks.Sublist manager.tasks)
    (kept : ∀ place ∈ manager.tasks, manager.isDone place = false → place ∈ tasks) :
    Books { manager with tasks := tasks } := by
  constructor
  · exact books.jobs
  · exact books.nodup.sublist fewer
  · exact Nat.le_trans fewer.length_le books.bounded
  · exact fun place member => books.known place (fewer.subset member)
  · intro place job there alive
    refine kept place (books.tracked place job there alive) ?_
    rw [isDone, there]
    exact alive
  · exact books.running
  · exact books.coros
  · exact books.closed

theorem Books.unfinished (books : manager.Books) :
    Books { manager with tasks := manager.unfinished manager.tasks } :=
  books.track List.filter_sublist fun place member going =>
    List.mem_filter.mpr ⟨member, by simp [going]⟩

theorem Books.drop (books : manager.Books) (active : List Nat) : (manager.drop active).Books :=
  books.track List.filter_sublist fun place member going =>
    List.mem_filter.mpr ⟨member, by simp [going]⟩

theorem Books.setDrain (books : manager.Books) (call : Nat) {drain : Drain}
    (closed : drain.Closing → manager.accepting = false) :
    (manager.setDrain call drain).Books := by
  refine ⟨books.jobs, books.nodup, books.bounded, books.known, books.tracked, books.running,
    books.coros, ?_⟩
  intro other member cancels
  rcases List.mem_or_eq_of_mem_set member with old | rfl
  · exact books.closed other old cancels
  · exact closed cancels

theorem Books.cancel (books : manager.Books) (place : Nat) : (manager.cancel place).Books := by
  unfold TaskManager.cancel
  split
  · next job there =>
      split
      · exact books
      · next going =>
          have alive : job.phase.isDone = false := by simpa using going
          exact books.put there alive (Job.cancelling_advances (books.at there) alive) id
            manager.runningCount rfl
  · exact books

/-! ### Submissions -/

theorem Books.reject (books : manager.Books) (bare : Bool) : (manager.reject bare).Books := by
  refine ⟨books.jobs, books.nodup, books.bounded, books.known, books.tracked, books.running, ?_,
    books.closed⟩
  intro own coro found unsettled
  cases bare with
  | false => exact books.coros own coro found unsettled
  | true =>
    rcases getElem?_concat_cases found with ⟨-, old⟩ | ⟨-, rfl⟩
    · exact books.coros own coro old unsettled
    · cases unsettled

/-- An accepted job is added to the jobs and to the set. -/
theorem Books.accept (books : manager.Books) (room : manager.rejects = false) (bare : Bool)
    (retry : Int) : Books { manager with
      acceptedCount := manager.acceptedCount + 1
      jobs := manager.jobs ++
        [Job.accepted (if bare then some manager.coros.length else none) retry]
      coros := if bare then manager.coros ++ [.unstarted] else manager.coros
      tasks := manager.tasks ++ [manager.jobs.length] } := by
  have few : manager.tasks.length < maxTasks := by
    unfold rejects at room
    simp at room
    exact room.2
  constructor
  · intro job member
    rcases List.mem_append.mp member with old | new
    · exact books.jobs job old
    · rw [List.mem_singleton.mp new]
      exact Job.accepted_formed _ retry
  · refine List.nodup_append.mpr ⟨books.nodup, by simp, ?_⟩
    intro old member new last
    have within := books.known old member
    rw [List.mem_singleton.mp last]
    omega
  · rw [List.length_append]
    exact few
  · intro place member
    rw [List.length_append]
    rcases List.mem_append.mp member with old | new
    · have within := books.known place old
      omega
    · rw [List.mem_singleton.mp new]
      exact Nat.lt_succ_self _
  · intro place job there alive
    rcases getElem?_concat_cases there with ⟨-, old⟩ | ⟨rfl, -⟩
    · exact List.mem_append_left _ (books.tracked place job old alive)
    · exact List.mem_append_right _ List.mem_cons_self
  · rw [List.countP_append, books.running]
    rfl
  · intro own coro found unsettled
    have old : manager.coros[own]? = some coro ∨ bare = true ∧ own = manager.coros.length := by
      cases bare with
      | false => exact .inl found
      | true => exact (getElem?_concat_cases found).imp And.right fun new => ⟨rfl, new.1⟩
    rcases old with old | ⟨rfl, rfl⟩
    · obtain ⟨job, member, owner, going⟩ := books.coros own coro old unsettled
      exact ⟨job, List.mem_append_left _ member, owner, going⟩
    · exact ⟨_, List.mem_append_right _ List.mem_cons_self, rfl, rfl⟩
  · exact books.closed

theorem Books.schedule (books : manager.Books) (bare : Bool) (retry : Int) :
    (manager.schedule bare retry).Books := by
  unfold TaskManager.schedule
  split
  · exact books.reject bare
  · next room => exact books.accept (by simpa using room) bare retry

theorem Books.trySubmit (books : manager.Books) : manager.trySubmit.Books := by
  unfold TaskManager.trySubmit
  split
  · exact books.reject true
  · exact books.schedule true 0

/-! ### The callback -/

/-- The callback closes the coroutine of its job. -/
theorem discard_coros {own : Nat} {coro : Coro}
    (found : (manager.discard place job).coros[own]? = some coro)
    (unsettled : coro.settled = false) :
    manager.coros[own]? = some coro ∧ job.coro ≠ some own := by
  have target : job.discard.coro = job.coro := Job.discard_fields.2
  unfold discard put at found
  dsimp only at found
  rw [target] at found
  cases mine : job.coro with
  | none =>
    rw [mine] at found
    exact ⟨found, by simp⟩
  | some own' =>
    rw [mine] at found
    dsimp only at found
    rw [List.getElem?_modify] at found
    obtain ⟨coro', stands, changed⟩ := Option.map_eq_some_iff.mp found
    by_cases same : own' = own
    · rw [if_pos same] at changed
      rw [← changed] at unsettled
      cases coro' <;> cases unsettled
    · rw [if_neg same] at changed
      refine ⟨changed ▸ stands, ?_⟩
      intro equal
      exact same (Option.some.inj equal)

theorem Books.discard (books : manager.Books) (there : manager.jobs[place]? = some job)
    (done : job.phase.isDone = true) (kept : job.discarded = false) :
    (manager.discard place job).Books := by
  obtain ⟨inside, -⟩ := List.getElem?_eq_some_iff.mp there
  have gone := (@Job.discard_fields job).1
  constructor
  · intro other member
    rcases List.mem_or_eq_of_mem_set member with old | rfl
    · exact books.jobs other old
    · exact Job.discard_formed (books.at there) done kept
  · exact books.nodup.erase place
  · exact Nat.le_trans (List.erase_sublist).length_le books.bounded
  · intro other member
    have within := books.known other (List.mem_of_mem_erase member)
    change other < (manager.jobs.set place job.discard).length
    rw [List.length_set]
    exact within
  · intro other held found alive
    by_cases same : place = other
    · subst same
      have mine : (manager.discard place job).jobs[place]? = some job.discard :=
        List.getElem?_set_self inside
      rw [mine] at found
      cases found
      rw [Job.discard_phase, done] at alive
      cases alive
    · have old : manager.jobs[other]? = some held :=
        (List.getElem?_set_ne same).symm.trans found
      exact (List.mem_erase_of_ne (Ne.symm same)).mpr (books.tracked other held old alive)
  · have total := countP_set Job.counted there job.discard
    have before : Job.counted job = job.wrapperStarted := by simp [Job.counted, kept]
    have after : Job.counted job.discard = false := by simp [Job.counted, gone]
    rw [before, after] at total
    have running := books.running
    change manager.runningCount - (if job.wrapperStarted then 1 else 0) =
      ((manager.jobs.set place job.discard).countP Job.counted : Int)
    cases started : job.wrapperStarted with
    | true =>
      rw [started, Bool.toNat_true, Bool.toNat_false] at total
      rw [if_pos rfl]
      omega
    | false =>
      rw [started, Bool.toNat_false] at total
      rw [if_neg (by decide)]
      omega
  · intro own coro found unsettled
    obtain ⟨stands, other⟩ := discard_coros found unsettled
    obtain ⟨holder, member, owner, going⟩ := books.coros own coro stands unsettled
    obtain ⟨index, found'⟩ := List.mem_iff_getElem?.mp member
    have apart : place ≠ index := by
      rintro rfl
      rw [there] at found'
      cases found'
      exact other owner
    have stays : (manager.discard place job).jobs[index]? = some holder :=
      (List.getElem?_set_ne apart).trans found'
    exact ⟨holder, List.mem_of_getElem? stays, owner, going⟩
  · exact books.closed

/-! ### Drains -/

theorem Books.gracefulRound (books : manager.Books) (call : Nat) :
    (manager.gracefulRound call).Books := by
  refine books.unfinished.setDrain call fun closing => ?_
  rcases closing with cancels | ⟨active, phase⟩
  · cases cancels
  · dsimp only at phase
    split at phase <;> cases phase

theorem cancel_accepting (manager : TaskManager) (place : Nat) :
    (manager.cancel place).accepting = manager.accepting := by
  unfold TaskManager.cancel
  split
  · split <;> rfl
  · rfl

theorem Books.cancelAll (books : manager.Books) (active : List Nat) :
    (manager.cancelAll active).Books ∧
      (manager.cancelAll active).accepting = manager.accepting := by
  unfold TaskManager.cancelAll
  induction active generalizing manager with
  | nil => exact ⟨books, rfl⟩
  | cons place rest ih =>
    obtain ⟨after, same⟩ := ih (books.cancel place)
    exact ⟨after, same.trans (cancel_accepting manager place)⟩

theorem Books.cancelRound (books : manager.Books) (closed : manager.accepting = false)
    (call : Nat) : (manager.cancelRound call).Books := by
  obtain ⟨after, same⟩ := books.unfinished.cancelAll (manager.unfinished manager.tasks)
  exact after.setDrain call fun _ => same.trans closed

/-- Admission is closed. -/
theorem Books.close (books : manager.Books) : Books { manager with accepting := false } :=
  ⟨books.jobs, books.nodup, books.bounded, books.known, books.tracked, books.running,
    books.coros, fun _ _ _ => rfl⟩

theorem Books.wakeDrain (books : manager.Books) (call : Nat) (late : Bool) :
    (manager.wakeDrain call late).Books := by
  unfold TaskManager.wakeDrain
  split
  · next active cancels there =>
      dsimp only
      split
      · exact (books.drop active).close.cancelRound rfl call
      · exact (books.drop active).gracefulRound call
  · next active cancels there =>
      have closed := books.closed _ (List.mem_of_getElem? there) (.inr ⟨active, rfl⟩)
      dsimp only
      split
      · exact (books.drop active).setDrain call fun _ => closed
      · exact (books.drop active).cancelRound closed call
  · exact books

/-- A drain is called. -/
theorem Books.called (books : manager.Books) :
    Books { manager with drains := manager.drains ++ [⟨.graceful [], false⟩] } := by
  refine ⟨books.jobs, books.nodup, books.bounded, books.known, books.tracked, books.running,
    books.coros, ?_⟩
  intro drain member closing
  rcases List.mem_append.mp member with old | new
  · exact books.closed drain old closing
  · rw [List.mem_singleton.mp new] at closing
    rcases closing with cancels | ⟨active, phase⟩
    · cases cancels
    · cases phase

/-! ### Every step -/

theorem Books.stepJob (books : manager.Books) {allowed : Job → Bool} {next : Job → TaskManager}
    (keeps : ∀ job, manager.jobs[place]? = some job → allowed job = true → (next job).Books) :
    (manager.stepJob place allowed next).Books := by
  unfold TaskManager.stepJob
  split
  · next job there =>
      split
      · next fits => exact keeps job there fits
      · exact books
  · exact books

/-- A step that leaves the wrapper as started as it was. -/
theorem Books.advance (books : manager.Books) (there : manager.jobs[place]? = some job)
    (alive : job.phase.isDone = false) (advances : job.Advances next)
    (same : next.wrapperStarted = job.wrapperStarted) (coro : Coro → Coro) :
    (manager.put place next coro).Books :=
  books.put there alive advances coro manager.runningCount (by rw [same])

theorem Books.step (books : manager.Books) (label : Label) : (manager.step label).Books := by
  cases label with
  | submit => exact books.schedule true 0
  | trySubmit => exact books.trySubmit
  | submitRetryable retry => exact books.schedule false retry
  | start place =>
    refine books.stepJob fun job there fits => ?_
    have phase : job.phase = .created := by simpa using fits
    have advances := Job.start_advances (books.at there) phase
    have started := Job.start_started (books.at there) phase
    have idle : job.wrapperStarted = false := by
      have formed := books.at there
      simp only [Job.Formed, phase] at formed
      exact formed.1
    refine books.put there (by rw [phase]; rfl) advances _ _ ?_
    rw [started, idle]
    cases job.cancelling <;> simp
  | targetEnded place ending =>
    refine books.stepJob fun job there fits => ?_
    have phase : job.phase = .attempt := by simpa using fits
    exact books.advance there (by rw [phase]; rfl)
      (Job.targetEnded_advances (books.at there) phase ending) (Job.targetEnded_started ending) _
  | retry place =>
    refine books.stepJob fun job there fits => ?_
    have phase : job.phase = .delay := by simpa using fits
    exact books.advance there (by rw [phase]; rfl)
      (Job.retry_advances (books.at there) phase) Job.nextAttempt_started _
  | interrupt place =>
    refine books.stepJob fun job there fits => ?_
    have phase : job.phase = .delay ∨ job.phase = .errorCallback := by simpa using fits
    have alive : job.phase.isDone = false := by
      rcases phase with phase | phase <;> rw [phase] <;> rfl
    exact books.advance there alive (Job.interrupted_advances (books.at there) phase)
      Job.interrupted_started _
  | errorCallbackEnded place =>
    refine books.stepJob fun job there fits => ?_
    have phase : job.phase = .errorCallback := by simpa using fits
    exact books.advance there (by rw [phase]; rfl)
      (Job.callbackEnded_advances (books.at there) phase) rfl _
  | cancel place => exact books.cancel place
  | discard place =>
    refine books.stepJob fun job there fits => ?_
    obtain ⟨done, kept⟩ := Bool.and_eq_true_iff.mp fits
    exact books.discard there done (by simpa using kept)
  | drain => exact books.called.gracefulRound _
  | wakeDrain call late => exact books.wakeDrain call late

theorem initial_books : initial.Books where
  jobs := by simp [initial]
  nodup := List.nodup_nil
  bounded := Nat.zero_le _
  known := by simp [initial]
  tracked := by simp [initial]
  running := rfl
  coros := by simp [initial]
  closed := by simp [initial]

/-! ### What a drain returns -/

theorem setDrain_drains {call other : Nat} {drain held : Drain}
    (found : (manager.setDrain call drain).drains[other]? = some held) :
    manager.drains[other]? = some held ∨ held = drain := by
  by_cases same : call = other
  · subst same
    obtain ⟨inside, -⟩ := List.getElem?_eq_some_iff.mp found
    change (manager.drains.set call drain)[call]? = some held at found
    rw [List.getElem?_set_self (by simpa [setDrain] using inside)] at found
    cases found
    exact .inr rfl
  · exact .inl ((List.getElem?_set_ne same).symm.trans found)

/-- No task of the set is alive, and so no accepted job. -/
theorem Books.all_done (books : manager.Books)
    (none : manager.unfinished manager.tasks = []) :
    ∀ job ∈ manager.jobs, job.phase.isDone = true := by
  intro job member
  obtain ⟨place, there⟩ := List.mem_iff_getElem?.mp member
  cases alive : job.phase.isDone with
  | true => rfl
  | false =>
    have mine := books.tracked place job there alive
    have listed : place ∈ manager.unfinished manager.tasks := by
      refine List.mem_filter.mpr ⟨mine, ?_⟩
      rw [isDone, there]
      simpa using alive
    rw [none] at listed
    cases listed

/-- A call has returned true in a step. -/
def ReturnsTrue (before after : TaskManager) (call : Nat) : Prop :=
  (∃ cancels, after.drains[call]? = some ⟨.returned true, cancels⟩) ∧
    ∀ cancels, before.drains[call]? ≠ some ⟨.returned true, cancels⟩

variable {before : TaskManager} {call other : Nat}

/-- The call had returned true before if it has in these drains. -/
def Returned (manager before : TaskManager) (call : Nat) : Prop :=
  ∀ cancels, manager.drains[call]? = some ⟨.returned true, cancels⟩ →
    before.drains[call]? = some ⟨.returned true, cancels⟩

theorem gracefulRound_done (books : manager.Books) (old : manager.Returned before other)
    (returns : before.ReturnsTrue (manager.gracefulRound call) other) :
    ∀ job ∈ (manager.gracefulRound call).jobs, job.phase.isDone = true := by
  obtain ⟨⟨cancels, found⟩, fresh⟩ := returns
  rcases setDrain_drains found with same | new
  · exact absurd (old cancels same) (fresh cancels)
  · obtain ⟨phase, -⟩ := Drain.mk.inj new
    split at phase
    · next none => exact books.all_done none
    · cases phase

theorem cancel_drains (manager : TaskManager) (place : Nat) :
    (manager.cancel place).drains = manager.drains := by
  unfold TaskManager.cancel
  split
  · split <;> rfl
  · rfl

theorem cancelAll_drains (manager : TaskManager) (active : List Nat) :
    (manager.cancelAll active).drains = manager.drains := by
  unfold TaskManager.cancelAll
  induction active generalizing manager with
  | nil => rfl
  | cons place rest ih => exact (ih _).trans (cancel_drains manager place)

theorem cancelRound_done (books : manager.Books) (old : manager.Returned before other)
    (returns : before.ReturnsTrue (manager.cancelRound call) other) :
    ∀ job ∈ (manager.cancelRound call).jobs, job.phase.isDone = true := by
  obtain ⟨⟨cancels, found⟩, fresh⟩ := returns
  rcases setDrain_drains found with same | new
  · rw [cancelAll_drains] at same
    exact absurd (old cancels same) (fresh cancels)
  · obtain ⟨phase, -⟩ := Drain.mk.inj new
    split at phase
    · next none =>
        have jobs : (manager.cancelRound call).jobs = manager.jobs := by
          unfold TaskManager.cancelRound
          rw [none]
          rfl
        rw [jobs]
        exact books.all_done none
    · cases phase

theorem wakeDrain_done (books : manager.Books) {late : Bool}
    (returns : manager.ReturnsTrue (manager.wakeDrain call late) other) :
    ∀ job ∈ (manager.wakeDrain call late).jobs, job.phase.isDone = true := by
  unfold TaskManager.wakeDrain at returns ⊢
  split at returns
  · next active cancels there =>
      dsimp only at returns ⊢
      split at returns
      · next late' =>
          rw [if_pos late']
          exact cancelRound_done (books.drop active).close (fun _ => id) returns
      · next early =>
          rw [if_neg early]
          exact gracefulRound_done (books.drop active) (fun _ => id) returns
  · next active cancels there =>
      dsimp only at returns ⊢
      split at returns
      · obtain ⟨⟨cancels, found⟩, fresh⟩ := returns
        rcases setDrain_drains found with old | new
        · exact absurd old (fresh cancels)
        · cases new
      · next going =>
          rw [if_neg going]
          exact cancelRound_done (books.drop active) (fun _ => id) returns
  · obtain ⟨⟨cancels, found⟩, fresh⟩ := returns
    exact absurd found (fresh cancels)

theorem schedule_drains (bare : Bool) (retry : Int) :
    (manager.schedule bare retry).drains = manager.drains := by
  unfold TaskManager.schedule
  split <;> rfl

theorem stepJob_drains {allowed : Job → Bool} {next : Job → TaskManager}
    (same : ∀ job, (next job).drains = manager.drains) :
    (manager.stepJob place allowed next).drains = manager.drains := by
  unfold TaskManager.stepJob
  split
  · split
    · exact same _
    · rfl
  · rfl

/-- In the state in which a call of `drain` returns true every accepted job is done. -/
theorem Books.drained (books : manager.Books) {label : Label}
    (returns : manager.ReturnsTrue (manager.step label) call) :
    ∀ job ∈ (manager.step label).jobs, job.phase.isDone = true := by
  have quiet : (manager.step label).drains = manager.drains → False := by
    intro same
    obtain ⟨⟨cancels, found⟩, fresh⟩ := returns
    exact fresh cancels (same ▸ found)
  cases label with
  | submit => exact (quiet (schedule_drains true 0)).elim
  | trySubmit =>
    refine (quiet ?_).elim
    change manager.trySubmit.drains = manager.drains
    unfold TaskManager.trySubmit
    split
    · rfl
    · exact schedule_drains true 0
  | submitRetryable retry => exact (quiet (schedule_drains false retry)).elim
  | start place | targetEnded place ending | retry place | interrupt place
  | errorCallbackEnded place => exact (quiet (stepJob_drains fun _ => rfl)).elim
  | cancel place => exact (quiet (cancel_drains manager place)).elim
  | discard place => exact (quiet (stepJob_drains fun _ => rfl)).elim
  | drain =>
    refine @gracefulRound_done _ manager _ _ ?_ ?_ returns
    · exact books.called
    · intro cancels found
      rcases getElem?_concat_cases found with ⟨-, old⟩ | ⟨-, new⟩
      · exact old
      · cases new
  | wakeDrain call late => exact wakeDrain_done books returns

/-! ### Admission -/

/-- Admission is closed and no job is added. -/
structure StaysClosed (before after : TaskManager) : Prop where
  accepting : after.accepting = false
  jobs : after.jobs.length = before.jobs.length

theorem put_closed (closed : manager.accepting = false) (place : Nat) (job : Job)
    (coro : Coro → Coro) : manager.StaysClosed (manager.put place job coro) :=
  ⟨closed, List.length_set⟩

theorem reject_closed (closed : manager.accepting = false) (bare : Bool) :
    manager.StaysClosed (manager.reject bare) := ⟨closed, rfl⟩

theorem schedule_closed (closed : manager.accepting = false) (bare : Bool) (retry : Int) :
    manager.StaysClosed (manager.schedule bare retry) := by
  have full : manager.rejects = true := by simp [rejects, closed]
  rw [TaskManager.schedule, if_pos full]
  exact reject_closed closed bare

theorem cancel_closed (closed : manager.accepting = false) (place : Nat) :
    manager.StaysClosed (manager.cancel place) := by
  unfold TaskManager.cancel
  split
  · split
    · exact ⟨closed, rfl⟩
    · exact put_closed closed _ _ _
  · exact ⟨closed, rfl⟩

theorem cancelAll_closed (closed : manager.accepting = false) (active : List Nat) :
    manager.StaysClosed (manager.cancelAll active) := by
  unfold TaskManager.cancelAll
  induction active generalizing manager with
  | nil => exact ⟨closed, rfl⟩
  | cons place rest ih =>
    have first := cancel_closed closed place
    have later := ih first.accepting
    exact ⟨later.accepting, later.jobs.trans first.jobs⟩

theorem stepJob_closed (closed : manager.accepting = false) {allowed : Job → Bool}
    {next : Job → TaskManager} (stays : ∀ job, manager.StaysClosed (next job)) :
    manager.StaysClosed (manager.stepJob place allowed next) := by
  unfold TaskManager.stepJob
  split
  · split
    · exact stays _
    · exact ⟨closed, rfl⟩
  · exact ⟨closed, rfl⟩

theorem cancelRound_closed (closed : manager.accepting = false) (call : Nat) :
    manager.StaysClosed (manager.cancelRound call) := by
  have all := @cancelAll_closed { manager with tasks := manager.unfinished manager.tasks } closed
    (manager.unfinished manager.tasks)
  exact ⟨all.accepting, all.jobs⟩

theorem wakeDrain_closed (closed : manager.accepting = false) (call : Nat) (late : Bool) :
    manager.StaysClosed (manager.wakeDrain call late) := by
  unfold TaskManager.wakeDrain
  split
  · next active cancels there =>
      dsimp only
      split
      · have round := @cancelRound_closed { manager.drop active with accepting := false } rfl call
        exact ⟨round.accepting, round.jobs⟩
      · exact ⟨closed, rfl⟩
  · next active cancels there =>
      dsimp only
      split
      · exact ⟨closed, rfl⟩
      · have round := @cancelRound_closed (manager.drop active) closed call
        exact ⟨round.accepting, round.jobs⟩
  · exact ⟨closed, rfl⟩

theorem step_closed (closed : manager.accepting = false) (label : Label) :
    manager.StaysClosed (manager.step label) := by
  cases label with
  | submit => exact schedule_closed closed true 0
  | trySubmit =>
    have full : manager.rejects = true := by simp [rejects, closed]
    change manager.StaysClosed manager.trySubmit
    rw [TaskManager.trySubmit, if_pos full]
    exact reject_closed closed true
  | submitRetryable retry => exact schedule_closed closed false retry
  | start place => exact stepJob_closed closed fun job => ⟨closed, List.length_set⟩
  | targetEnded place ending | retry place | interrupt place | errorCallbackEnded place =>
    exact stepJob_closed closed fun job => put_closed closed _ _ _
  | cancel place => exact cancel_closed closed place
  | discard place => exact stepJob_closed closed fun job => ⟨closed, List.length_set⟩
  | drain => exact ⟨closed, rfl⟩
  | wakeDrain call late => exact wakeDrain_closed closed call late

theorem run_closed (closed : manager.accepting = false) (labels : List Label) :
    manager.StaysClosed (Run.run step manager labels) := by
  induction labels generalizing manager with
  | nil => exact ⟨closed, rfl⟩
  | cons label rest ih =>
    have first := step_closed closed label
    have later := ih first.accepting
    exact ⟨later.accepting, later.jobs.trans first.jobs⟩

end TaskManager

/-! ## Runs -/

/-- The manager after a run. -/
def after (labels : List TaskManager.Label) : TaskManager :=
  Run.run TaskManager.step TaskManager.initial labels

theorem after_books (labels : List TaskManager.Label) : (after labels).Books :=
  Run.run_keeps TaskManager.Books (fun _ label books => books.step label)
    TaskManager.initial_books labels

/-- What the books of the manager say after a run. -/
structure Accounted (manager : TaskManager) : Prop where
  /-- The tracked tasks are at most as many as the limit. -/
  bounded : manager.tasks.length ≤ maxTasks
  /-- The running count is that of the wrappers that have started and whose callback
  has not run. -/
  running : manager.runningCount = manager.jobs.countP Job.counted
  /-- A bare coroutine has ended or is closed, or the callback of its job is to come. -/
  coros : ∀ (own : Nat) (coro : Coro), manager.coros[own]? = some coro →
    coro.settled = true ∨ ∃ job ∈ manager.jobs, job.coro = some own ∧ job.discarded = false
  /-- A job has emitted one terminal event at most, and one when its callback has run. -/
  finished : ∀ job ∈ manager.jobs, job.finished.length ≤ 1 ∧
    (job.discarded = true → 0 ≤ job.retry → job.finished.length = 1)
  /-- Every call of `drain` that returns true finds every job done. -/
  drained : ∀ label call, manager.ReturnsTrue (manager.step label) call →
    ∀ job ∈ (manager.step label).jobs, job.phase.isDone = true
  /-- After a drain has come to its cancellation phase no run accepts a job. -/
  closed : (∃ drain ∈ manager.drains, drain.Closing) →
    ∀ more, (Run.run TaskManager.step manager more).jobs.length = manager.jobs.length

/-- After every run the tasks are accounted for. -/
theorem tasks_accounted (labels : List TaskManager.Label) : Accounted (after labels) := by
  have books := after_books labels
  refine ⟨books.bounded, books.running, ?_, ?_, ?_, ?_⟩
  · intro own coro found
    cases settled : coro.settled with
    | true => exact .inl rfl
    | false => exact .inr (books.coros own coro found settled)
  · exact fun job member => (books.jobs job member).finished
  · exact fun label call returns => books.drained returns
  · rintro ⟨drain, member, closing⟩ more
    exact (TaskManager.run_closed (books.closed drain member closing) more).jobs

/-! ## A wrapper that has ended -/

/-- A job has ended and its callback is to come. -/
def endedJob : List TaskManager.Label := [.submit, .start 0, .targetEnded 0 .returns]

/-- A job with a negative number of retries, to its end. -/
def negativeRetry : List TaskManager.Label := [.submitRetryable (-1), .start 0, .discard 0]

/-- An ended wrapper is counted as running until its callback runs, and a job may make
no attempt and emit no event. -/
theorem ended_wrapper_counted :
    ((after endedJob).runningCount = 1 ∧
      (after endedJob).jobs.countP (fun job => job.wrapperStarted && !job.phase.isDone) = 0) ∧
    (after negativeRetry).jobs.map (fun job => (job.discarded, job.finished)) = [(true, [])] := by
  decide

end BobbyBotique.Background
