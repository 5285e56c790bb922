import Mathlib.Data.List.Nodup
import Mathlib.Logic.Function.Basic

/-!
# A fair lock of an event loop

A lock with a deque of futures.  A release wakes the first waiter, which takes the
lock only when its task runs on; until then the lock is free, but every newcomer
sees the woken waiter and queues up.  A waiter that is cancelled wakes the next one
where the lock is free.
-/

namespace BobbyBotique

inductive Future where
  | pending | done | cancelled
  deriving DecidableEq

/-- A task in the deque, and whether it was cancelled after its future was done. -/
structure LockWaiter where
  task : Nat
  future : Future
  cancelled : Bool

/-- It may still take the lock. -/
def LockWaiter.alive (waiter : LockWaiter) : Bool := waiter.future ≠ .cancelled

def LockWaiter.isNot (task : Nat) (waiter : LockWaiter) : Bool := waiter.task ≠ task

structure AsyncLock where
  locked : Bool
  waiters : List LockWaiter

/-- What a task finds when it runs on. -/
inductive Resumed where
  | waits | acquired | cancelled
  deriving DecidableEq

namespace AsyncLock

def initial : AsyncLock := ⟨false, []⟩

/-- The lock can be had at once. -/
def free (lock : AsyncLock) : Bool :=
  !lock.locked && lock.waiters.all fun waiter => !waiter.alive

def take (lock : AsyncLock) : AsyncLock := { lock with locked := true }

def enqueue (lock : AsyncLock) (task : Nat) : AsyncLock :=
  { lock with waiters := lock.waiters ++ [⟨task, .pending, false⟩] }

def wakeFirst : List LockWaiter → List LockWaiter
  | [] => []
  | waiter :: rest =>
    (if waiter.future = .pending then { waiter with future := .done } else waiter) :: rest

def wake (lock : AsyncLock) : AsyncLock := { lock with waiters := wakeFirst lock.waiters }

def release (lock : AsyncLock) : AsyncLock := wake { lock with locked := false }

def LockWaiter.cancel (waiter : LockWaiter) : LockWaiter :=
  match waiter.future with
  | .pending => { waiter with future := .cancelled }
  | .done => { waiter with cancelled := true }
  | .cancelled => waiter

/-- A task is cancelled while it waits. -/
def cancel (lock : AsyncLock) (task : Nat) : AsyncLock :=
  { lock with
    waiters := lock.waiters.map fun waiter =>
      if waiter.task = task then LockWaiter.cancel waiter else waiter }

def remove (lock : AsyncLock) (task : Nat) : AsyncLock :=
  { lock with waiters := lock.waiters.filter (LockWaiter.isNot task) }

/-- The end of a cancelled wait. -/
def giveUp (lock : AsyncLock) : AsyncLock := if lock.locked then lock else lock.wake

/-- A waiting task runs on. -/
def resume (lock : AsyncLock) (task : Nat) : AsyncLock × Resumed :=
  match lock.waiters.find? fun waiter => waiter.task = task with
  | none => (lock, .waits)
  | some waiter =>
    match waiter.future with
    | .pending => (lock, .waits)
    | .cancelled => ((lock.remove task).giveUp, .cancelled)
    | .done =>
      if waiter.cancelled then ((lock.remove task).giveUp, .cancelled)
      else ((lock.remove task).take, .acquired)

/-- The tasks in the deque. -/
def tasks (lock : AsyncLock) : List Nat := lock.waiters.map LockWaiter.task

/-- The tasks that may still take the lock, in the order in which they came. -/
def queue (lock : AsyncLock) : List Nat :=
  (lock.waiters.filter LockWaiter.alive).map LockWaiter.task

structure Sound (lock : AsyncLock) : Prop where
  nodup : lock.tasks.Nodup
  /-- Only the first waiter is woken, and only while the lock is free. -/
  woken : ∀ waiter ∈ lock.waiters, waiter.future = .done →
    lock.locked = false ∧ lock.waiters.head? = some waiter
  /-- While the lock is free the first waiter has something to run for. -/
  runs : lock.locked = false → ∀ waiter, lock.waiters.head? = some waiter → waiter.future ≠ .pending

theorem initial_sound : initial.Sound :=
  ⟨List.nodup_nil, fun _ absurd => (List.not_mem_nil absurd).elim, fun _ _ absurd => nomatch absurd⟩

variable {lock : AsyncLock} {task : Nat}

theorem wakeFirst_tasks (waiters : List LockWaiter) :
    (wakeFirst waiters).map LockWaiter.task = waiters.map LockWaiter.task := by
  cases waiters with
  | nil => rfl
  | cons waiter rest =>
    rw [wakeFirst]
    split
    · rfl
    · rfl

theorem wake_tasks : lock.wake.tasks = lock.tasks := wakeFirst_tasks lock.waiters

theorem wakeFirst_alive (waiters : List LockWaiter) :
    ((wakeFirst waiters).filter LockWaiter.alive).map LockWaiter.task =
      (waiters.filter LockWaiter.alive).map LockWaiter.task := by
  cases waiters with
  | nil => rfl
  | cons waiter rest =>
    rw [wakeFirst]
    split
    · next pending =>
        have alive : waiter.alive = true := decide_eq_true (pending ▸ Future.noConfusion)
        rw [List.filter_cons_of_pos alive]
        rfl
    · rfl

theorem wake_queue : lock.wake.queue = lock.queue := wakeFirst_alive lock.waiters

/-- A free lock is sound once it wakes its first waiter. -/
theorem wake_sound (open' : lock.locked = false) (nodup : lock.tasks.Nodup)
    (woken : ∀ waiter ∈ lock.waiters, waiter.future = .done → lock.waiters.head? = some waiter) :
    lock.wake.Sound := by
  refine ⟨wake_tasks.symm ▸ nodup, ?_, ?_⟩
  · intro waiter among done
    refine ⟨open', ?_⟩
    unfold wake at among ⊢
    dsimp only at among ⊢
    cases shape : lock.waiters with
    | nil =>
      rw [shape] at among
      exact absurd among List.not_mem_nil
    | cons first rest =>
      rw [shape] at among woken
      rw [wakeFirst] at among ⊢
      rcases List.mem_cons.mp among with same | behind
      · rw [same]
        rfl
      · have front := Option.some.inj (woken waiter (List.mem_cons_of_mem _ behind) done)
        rw [← front, if_neg]
        · rfl
        · rw [front, done]
          decide
  · intro _ waiter front
    unfold wake at front
    dsimp only at front
    cases shape : lock.waiters with
    | nil =>
      rw [shape] at front
      cases front
    | cons first rest =>
      rw [shape, wakeFirst] at front
      obtain rfl := Option.some.inj front
      split
      · exact Future.noConfusion
      · next moved => exact moved

theorem Sound.release (sound : lock.Sound) (held : lock.locked = true) : lock.release.Sound := by
  unfold AsyncLock.release
  refine @wake_sound { lock with locked := false } rfl sound.nodup ?_
  intro waiter among done
  have open' := (sound.woken waiter among done).1
  rw [held] at open'
  cases open'

theorem Sound.take (sound : lock.Sound) (free : lock.free = true) : lock.take.Sound := by
  obtain ⟨_, gone⟩ := Bool.and_eq_true_iff.mp free
  refine ⟨sound.nodup, ?_, fun absurd => nomatch absurd⟩
  intro waiter among done
  have dead := List.all_eq_true.mp gone waiter among
  rw [LockWaiter.alive, done] at dead
  cases dead

theorem Sound.enqueue (sound : lock.Sound) (busy : lock.free = false) (fresh : task ∉ lock.tasks) :
    (lock.enqueue task).Sound := by
  have some : lock.locked = false → lock.waiters ≠ [] := by
    intro open' none
    unfold free at busy
    rw [open', none] at busy
    cases busy
  refine ⟨?_, ?_, ?_⟩
  · unfold tasks AsyncLock.enqueue
    rw [List.map_append]
    refine List.Nodup.append sound.nodup (List.nodup_singleton _) ?_
    intro name among last
    obtain rfl := List.mem_singleton.mp last
    exact fresh among
  · intro waiter among done
    rcases List.mem_append.mp among with old | new
    · obtain ⟨open', front⟩ := sound.woken waiter old done
      refine ⟨open', ?_⟩
      exact List.head?_append_of_ne_nil _ (List.ne_nil_of_mem old) ▸ front
    · obtain rfl := List.mem_singleton.mp new
      cases done
  · intro open' waiter front
    apply sound.runs open' waiter
    rwa [AsyncLock.enqueue, List.head?_append_of_ne_nil _ (some open')] at front

theorem LockWaiter.cancel_task (waiter : LockWaiter) :
    (LockWaiter.cancel waiter).task = waiter.task := by
  unfold LockWaiter.cancel
  split
  · rfl
  · rfl
  · rfl

theorem LockWaiter.cancel_done {waiter : LockWaiter}
    (done : (LockWaiter.cancel waiter).future = .done) : waiter.future = .done := by
  unfold LockWaiter.cancel at done
  split at done
  · cases done
  · assumption
  · assumption

theorem LockWaiter.cancel_pending {waiter : LockWaiter}
    (pending : (LockWaiter.cancel waiter).future = .pending) : waiter.future = .pending := by
  unfold LockWaiter.cancel at pending
  split at pending
  · cases pending
  · assumption
  · assumption

/-- What a cancellation does to one waiter. -/
def cancelOne (task : Nat) (waiter : LockWaiter) : LockWaiter :=
  if waiter.task = task then LockWaiter.cancel waiter else waiter

theorem cancel_waiters : (lock.cancel task).waiters = lock.waiters.map (cancelOne task) := rfl

theorem cancelOne_task (waiter : LockWaiter) : (cancelOne task waiter).task = waiter.task := by
  unfold cancelOne
  split
  · exact LockWaiter.cancel_task waiter
  · rfl

theorem cancelOne_done {waiter : LockWaiter} (done : (cancelOne task waiter).future = .done) :
    waiter.future = .done := by
  unfold cancelOne at done
  split at done
  · exact LockWaiter.cancel_done done
  · exact done

theorem cancelOne_pending {waiter : LockWaiter}
    (pending : (cancelOne task waiter).future = .pending) : waiter.future = .pending := by
  unfold cancelOne at pending
  split at pending
  · exact LockWaiter.cancel_pending pending
  · exact pending

theorem cancelOne_alive {waiter : LockWaiter} (alive : (cancelOne task waiter).alive = true) :
    waiter.alive = true := by
  apply decide_eq_true
  intro before
  apply of_decide_eq_true alive
  unfold cancelOne LockWaiter.cancel
  rw [before]
  split
  · exact before
  · exact before

theorem cancel_tasks : (lock.cancel task).tasks = lock.tasks := by
  unfold tasks
  rw [cancel_waiters, List.map_map]
  apply List.map_congr_left
  intro waiter _
  exact cancelOne_task waiter

theorem Sound.cancel (sound : lock.Sound) (task : Nat) : (lock.cancel task).Sound := by
  refine ⟨cancel_tasks.symm ▸ sound.nodup, ?_, ?_⟩
  · intro waiter among done
    rw [cancel_waiters] at among ⊢
    obtain ⟨old, there, rfl⟩ := List.mem_map.mp among
    obtain ⟨open', front⟩ := sound.woken old there (cancelOne_done done)
    refine ⟨open', ?_⟩
    rw [List.head?_map, front]
    rfl
  · intro open' waiter front pending
    rw [cancel_waiters, List.head?_map] at front
    obtain ⟨old, first, rfl⟩ := Option.map_eq_some_iff.mp front
    exact sound.runs open' old first (cancelOne_pending pending)

/-- A cancellation takes tasks out of the queue, and moves none. -/
theorem cancel_queue : (lock.cancel task).queue.Sublist lock.queue := by
  unfold queue
  rw [cancel_waiters]
  induction lock.waiters with
  | nil => exact List.Sublist.refl _
  | cons waiter rest ih =>
    rw [List.map_cons]
    by_cases alive : (cancelOne task waiter).alive = true
    · rw [List.filter_cons_of_pos alive, List.map_cons, cancelOne_task,
        List.filter_cons_of_pos (cancelOne_alive alive), List.map_cons]
      exact ih.cons_cons _
    · rw [List.filter_cons_of_neg alive]
      refine ih.trans ?_
      exact ((List.sublist_cons_self _ _).filter _).map _

theorem enqueue_queue : (lock.enqueue task).queue = lock.queue ++ [task] := by
  unfold queue AsyncLock.enqueue
  rw [List.filter_append, List.map_append]
  rfl

/-- Nobody who may still take the lock is passed over. -/
theorem free_queue (free : lock.free = true) : lock.queue = [] := by
  obtain ⟨_, gone⟩ := Bool.and_eq_true_iff.mp free
  unfold queue
  rw [List.map_eq_nil_iff, List.filter_eq_nil_iff]
  intro waiter among alive
  have dead := List.all_eq_true.mp gone waiter among
  rw [alive] at dead
  cases dead

theorem take_queue : lock.take.queue = lock.queue := rfl

theorem remove_tasks :
    (lock.remove task).tasks = lock.tasks.filter fun name => name ≠ task := by
  unfold tasks AsyncLock.remove
  rw [List.filter_map]
  rfl

theorem remove_queue : (lock.remove task).queue.Sublist lock.queue := by
  unfold queue AsyncLock.remove
  exact (List.filter_sublist.filter _).map _

theorem giveUp_tasks : lock.giveUp.tasks = lock.tasks := by
  unfold giveUp
  split
  · rfl
  · exact wake_tasks

theorem giveUp_queue : lock.giveUp.queue = lock.queue := by
  unfold giveUp
  split
  · rfl
  · exact wake_queue

theorem giveUp_locked : lock.giveUp.locked = lock.locked := by
  unfold giveUp
  split
  · rfl
  · rfl

theorem release_tasks : lock.release.tasks = lock.tasks := wakeFirst_tasks lock.waiters

theorem release_queue : lock.release.queue = lock.queue := wakeFirst_alive lock.waiters

theorem Sound.remove_giveUp (sound : lock.Sound) (task : Nat) :
    (lock.remove task).giveUp.Sound := by
  have nodup : (lock.remove task).tasks.Nodup := by
    rw [remove_tasks]
    exact sound.nodup.filter _
  unfold giveUp
  split
  · next held =>
      refine ⟨nodup, ?_, ?_⟩
      · intro waiter among done
        have open' := (sound.woken waiter (List.mem_of_mem_filter among) done).1
        rw [show lock.locked = true from held] at open'
        cases open'
      · intro open'
        rw [held] at open'
        cases open'
  · next free =>
      apply wake_sound (eq_false_of_ne_true free) nodup
      intro waiter among done
      obtain ⟨there, stays⟩ := List.mem_filter.mp among
      have front := (sound.woken waiter there done).2
      show (lock.waiters.filter (LockWaiter.isNot task)).head? = some waiter
      cases shape : lock.waiters with
      | nil =>
        rw [shape] at front
        cases front
      | cons first rest =>
        rw [shape] at front
        obtain rfl := Option.some.inj front
        rw [List.filter_cons_of_pos stays]
        rfl

/-- How a waiting task runs on. -/
theorem Sound.resume_cases (sound : lock.Sound) (task : Nat) :
    ((lock.resume task).1 = lock ∧ (lock.resume task).2 = .waits) ∨
    ((lock.resume task).1 = (lock.remove task).giveUp ∧ (lock.resume task).2 = .cancelled) ∨
    ((lock.resume task).1 = (lock.remove task).take ∧ (lock.resume task).2 = .acquired ∧
      lock.locked = false ∧ ∃ waiter rest, lock.waiters = waiter :: rest ∧ waiter.task = task ∧
        waiter.future = .done) := by
  unfold resume
  cases found : lock.waiters.find? fun waiter => waiter.task = task with
  | none => exact .inl ⟨rfl, rfl⟩
  | some waiter =>
    have named : waiter.task = task := by
      have holds := List.find?_some found
      exact of_decide_eq_true holds
    dsimp only
    cases future : waiter.future with
    | pending => exact .inl ⟨rfl, rfl⟩
    | cancelled => exact .inr (.inl ⟨rfl, rfl⟩)
    | done =>
      dsimp only
      split
      · exact .inr (.inl ⟨rfl, rfl⟩)
      · obtain ⟨open', front⟩ := sound.woken waiter (List.mem_of_find?_eq_some found) future
        refine .inr (.inr ⟨rfl, rfl, open', ?_⟩)
        cases shape : lock.waiters with
        | nil =>
          rw [shape] at front
          cases front
        | cons first rest =>
          rw [shape] at front
          obtain rfl := Option.some.inj front
          exact ⟨first, rest, rfl, named, future⟩

theorem Sound.resume (sound : lock.Sound) (task : Nat) : (lock.resume task).1.Sound := by
  rcases sound.resume_cases task with
    ⟨same, _⟩ | ⟨gone, _⟩ | ⟨taken, _, _, first, rest, shape, named, _⟩
  · rw [same]
    exact sound
  · rw [gone]
    exact sound.remove_giveUp task
  · rw [taken]
    refine ⟨?_, ?_, fun absurd => nomatch absurd⟩
    · show (lock.remove task).tasks.Nodup
      rw [remove_tasks]
      exact sound.nodup.filter _
    · intro waiter among done
      obtain ⟨there, stays⟩ := List.mem_filter.mp among
      have front := (sound.woken waiter there done).2
      rw [shape] at front
      obtain rfl := Option.some.inj front
      exact absurd named (of_decide_eq_true stays)

/-- The task that takes the lock is the first of the queue. -/
theorem acquired_queue (sound : lock.Sound) (acquired : (lock.resume task).2 = .acquired) :
    lock.queue = task :: (lock.resume task).1.queue := by
  rcases sound.resume_cases task with
    ⟨_, result⟩ | ⟨_, result⟩ | ⟨taken, _, _, first, rest, shape, named, future⟩
  · rw [acquired] at result
    cases result
  · rw [acquired] at result
    cases result
  · have nodup : (first.task :: rest.map LockWaiter.task).Nodup := by
      have nodup := sound.nodup
      unfold tasks at nodup
      rwa [shape] at nodup
    have alive : first.alive = true := decide_eq_true (future ▸ Future.noConfusion)
    have moves : ¬first.isNot task = true := fun stays => of_decide_eq_true stays named
    have others : (first :: rest).filter (LockWaiter.isNot task) = rest := by
      rw [List.filter_cons_of_neg moves, List.filter_eq_self]
      intro waiter among
      apply decide_eq_true
      intro same
      refine (List.nodup_cons.mp nodup).1 ?_
      rw [named, ← same]
      exact List.mem_map_of_mem among
    rw [taken, take_queue]
    unfold queue AsyncLock.remove
    dsimp only
    rw [shape, others, List.filter_cons_of_pos alive, List.map_cons, named]

theorem resume_queue (sound : lock.Sound) : (lock.resume task).1.queue.Sublist lock.queue := by
  rcases sound.resume_cases task with ⟨same, _⟩ | ⟨gone, _⟩ | ⟨taken, _, _⟩
  · rw [same]
  · rw [gone, giveUp_queue]
    exact remove_queue
  · rw [taken, take_queue]
    exact remove_queue

/-- A task that does not go on waiting leaves the deque. -/
theorem Sound.resume_tasks (sound : lock.Sound) (moved : (lock.resume task).2 ≠ .waits)
    (other : Nat) : other ∈ (lock.resume task).1.tasks ↔ other ∈ lock.tasks ∧ other ≠ task := by
  have left : other ∈ (lock.remove task).tasks ↔ other ∈ lock.tasks ∧ other ≠ task := by
    rw [remove_tasks, List.mem_filter, decide_eq_true_iff]
  rcases sound.resume_cases task with ⟨_, result⟩ | ⟨gone, _⟩ | ⟨taken, _⟩
  · exact absurd result moved
  · rw [gone, giveUp_tasks]
    exact left
  · rw [taken]
    exact left

theorem Sound.resume_acquired (sound : lock.Sound) (acquired : (lock.resume task).2 = .acquired) :
    lock.locked = false ∧ (lock.resume task).1.locked = true := by
  rcases sound.resume_cases task with ⟨_, result⟩ | ⟨_, result⟩ | ⟨taken, _, free, _⟩
  · rw [acquired] at result
    cases result
  · rw [acquired] at result
    cases result
  · rw [taken]
    exact ⟨free, rfl⟩

theorem Sound.resume_cancelled (sound : lock.Sound)
    (cancelled : (lock.resume task).2 = .cancelled) :
    (lock.resume task).1.locked = lock.locked := by
  rcases sound.resume_cases task with ⟨_, result⟩ | ⟨gone, _⟩ | ⟨_, result, _⟩
  · rw [cancelled] at result
    cases result
  · rw [gone]
    exact giveUp_locked
  · rw [cancelled] at result
    cases result

/-- A task that does not wait on was in the deque. -/
theorem mem_of_resume (moved : (lock.resume task).2 ≠ .waits) : task ∈ lock.tasks := by
  unfold resume at moved
  cases found : lock.waiters.find? fun waiter => waiter.task = task with
  | none =>
    rw [found] at moved
    exact absurd rfl moved
  | some waiter =>
    have named : waiter.task = task := by
      have holds := List.find?_some found
      exact of_decide_eq_true holds
    exact named ▸ List.mem_map_of_mem (List.mem_of_find?_eq_some found)

/-- While the lock is free the first waiter has something to run for. -/
theorem Sound.head_moves (sound : lock.Sound) (free : lock.locked = false)
    (waiting : lock.tasks ≠ []) : ∃ first ∈ lock.tasks, (lock.resume first).2 ≠ .waits := by
  have runs := sound.runs free
  unfold tasks at waiting ⊢
  cases shape : lock.waiters with
  | nil =>
    rw [shape] at waiting
    exact absurd rfl waiting
  | cons first rest =>
    rw [shape] at runs
    have moves := runs first rfl
    refine ⟨first.task, List.mem_cons_self, ?_⟩
    have found : (first :: rest).find? (fun waiter => waiter.task = first.task) = some first :=
      List.find?_cons_of_pos (decide_eq_true rfl)
    unfold AsyncLock.resume
    rw [shape, found]
    dsimp only
    split
    · next pending => exact absurd pending moves
    · exact Resumed.noConfusion
    · split
      · exact Resumed.noConfusion
      · exact Resumed.noConfusion

/-! ## Cancelled and spared waiters -/

/-- Whatever the task waits for, it will find its cancellation. -/
def Doomed (lock : AsyncLock) (task : Nat) : Prop :=
  ∀ waiter ∈ lock.waiters, waiter.task = task → waiter.future = .cancelled ∨ waiter.cancelled = true

/-- Nobody has cancelled the task. -/
def Spared (lock : AsyncLock) (task : Nat) : Prop :=
  ∀ waiter ∈ lock.waiters, waiter.task = task →
    waiter.future ≠ .cancelled ∧ waiter.cancelled = false

theorem mem_wakeFirst {waiters : List LockWaiter} {waiter : LockWaiter}
    (among : waiter ∈ wakeFirst waiters) : waiter ∈ waiters ∨
      ∃ old ∈ waiters, old.future = .pending ∧ waiter = { old with future := .done } := by
  cases waiters with
  | nil => exact .inl among
  | cons first rest =>
    rw [wakeFirst] at among
    split at among
    · next pending =>
        rcases List.mem_cons.mp among with same | behind
        · exact .inr ⟨first, List.mem_cons_self, pending, same⟩
        · exact .inl (List.mem_cons_of_mem first behind)
    · exact .inl among

theorem Doomed.wake (doomed : lock.Doomed task) : lock.wake.Doomed task := by
  intro waiter among named
  rcases mem_wakeFirst among with old | ⟨old, there, pending, rfl⟩
  · exact doomed waiter old named
  · rcases doomed old there named with gone | marked
    · rw [pending] at gone
      cases gone
    · exact .inr marked

theorem Spared.wake (spared : lock.Spared task) : lock.wake.Spared task := by
  intro waiter among named
  rcases mem_wakeFirst among with old | ⟨old, there, _, rfl⟩
  · exact spared waiter old named
  · exact ⟨Future.noConfusion, (spared old there named).2⟩

theorem Doomed.release (doomed : lock.Doomed task) : lock.release.Doomed task :=
  @Doomed.wake { lock with locked := false } task doomed

theorem Spared.release (spared : lock.Spared task) : lock.release.Spared task :=
  @Spared.wake { lock with locked := false } task spared

theorem Doomed.enqueue {other : Nat} (doomed : lock.Doomed task) (apart : task ≠ other) :
    (lock.enqueue other).Doomed task := by
  intro waiter among named
  rcases List.mem_append.mp among with old | new
  · exact doomed waiter old named
  · obtain rfl := List.mem_singleton.mp new
    exact absurd named.symm apart

theorem Spared.enqueue (spared : lock.Spared task) (other : Nat) :
    (lock.enqueue other).Spared task := by
  intro waiter among named
  rcases List.mem_append.mp among with old | new
  · exact spared waiter old named
  · obtain rfl := List.mem_singleton.mp new
    exact ⟨Future.noConfusion, rfl⟩

theorem Doomed.cancel (doomed : lock.Doomed task) (other : Nat) :
    (lock.cancel other).Doomed task := by
  intro waiter among named
  rw [cancel_waiters] at among
  obtain ⟨old, there, rfl⟩ := List.mem_map.mp among
  rw [cancelOne_task] at named
  have before := doomed old there named
  unfold cancelOne LockWaiter.cancel
  split
  · split
    · exact .inl rfl
    · exact .inr rfl
    · exact before
  · exact before

theorem Spared.cancel {other : Nat} (spared : lock.Spared task) (apart : task ≠ other) :
    (lock.cancel other).Spared task := by
  intro waiter among named
  rw [cancel_waiters] at among
  obtain ⟨old, there, rfl⟩ := List.mem_map.mp among
  rw [cancelOne_task] at named
  unfold cancelOne
  rw [if_neg (named ▸ apart)]
  exact spared old there named

theorem cancel_doomed (lock : AsyncLock) (task : Nat) : (lock.cancel task).Doomed task := by
  intro waiter among named
  rw [cancel_waiters] at among
  obtain ⟨old, there, rfl⟩ := List.mem_map.mp among
  rw [cancelOne_task] at named
  unfold cancelOne
  rw [if_pos named]
  unfold LockWaiter.cancel
  split
  · exact .inl rfl
  · exact .inr rfl
  · next gone => exact .inl gone

theorem Doomed.remove (doomed : lock.Doomed task) (other : Nat) :
    (lock.remove other).Doomed task :=
  fun waiter among => doomed waiter (List.mem_of_mem_filter among)

theorem Spared.remove (spared : lock.Spared task) (other : Nat) :
    (lock.remove other).Spared task :=
  fun waiter among => spared waiter (List.mem_of_mem_filter among)

theorem Doomed.giveUp (doomed : lock.Doomed task) : lock.giveUp.Doomed task := by
  unfold AsyncLock.giveUp
  split
  · exact doomed
  · exact doomed.wake

theorem Spared.giveUp (spared : lock.Spared task) : lock.giveUp.Spared task := by
  unfold AsyncLock.giveUp
  split
  · exact spared
  · exact spared.wake

theorem Doomed.resume (doomed : lock.Doomed task) (sound : lock.Sound) (other : Nat) :
    (lock.resume other).1.Doomed task := by
  rcases sound.resume_cases other with ⟨same, _⟩ | ⟨gone, _⟩ | ⟨taken, _⟩
  · exact same.symm ▸ doomed
  · exact gone.symm ▸ (doomed.remove other).giveUp
  · exact taken.symm ▸ doomed.remove other

theorem Spared.resume (spared : lock.Spared task) (sound : lock.Sound) (other : Nat) :
    (lock.resume other).1.Spared task := by
  rcases sound.resume_cases other with ⟨same, _⟩ | ⟨gone, _⟩ | ⟨taken, _⟩
  · exact same.symm ▸ spared
  · exact gone.symm ▸ (spared.remove other).giveUp
  · exact taken.symm ▸ spared.remove other

theorem Doomed.not_acquired (doomed : lock.Doomed task) : (lock.resume task).2 ≠ .acquired := by
  unfold AsyncLock.resume
  cases found : lock.waiters.find? fun waiter => waiter.task = task with
  | none => exact Resumed.noConfusion
  | some waiter =>
    have named : waiter.task = task := by
      have holds := List.find?_some found
      exact of_decide_eq_true holds
    have fate := doomed waiter (List.mem_of_find?_eq_some found) named
    dsimp only
    cases future : waiter.future with
    | pending | cancelled => exact Resumed.noConfusion
    | done =>
      rw [future] at fate
      rcases fate with absurd | marked
      · cases absurd
      · dsimp only
        rw [if_pos marked]
        exact Resumed.noConfusion

theorem Spared.not_cancelled (spared : lock.Spared task) :
    (lock.resume task).2 ≠ .cancelled := by
  unfold AsyncLock.resume
  cases found : lock.waiters.find? fun waiter => waiter.task = task with
  | none => exact Resumed.noConfusion
  | some waiter =>
    have named : waiter.task = task := by
      have holds := List.find?_some found
      exact of_decide_eq_true holds
    obtain ⟨alive, unmarked⟩ := spared waiter (List.mem_of_find?_eq_some found) named
    dsimp only
    cases future : waiter.future with
    | pending => exact Resumed.noConfusion
    | cancelled => exact absurd future alive
    | done =>
      dsimp only
      rw [unmarked]
      exact Resumed.noConfusion

/-! ## Who waits for the lock and who holds it -/

inductive LockRole where
  | outside | waits | holds
  deriving DecidableEq

/-- The deque holds the tasks that wait, and a lock that is held has one holder. -/
structure Serves (lock : AsyncLock) (role : Nat → LockRole) : Prop where
  sound : lock.Sound
  queued : ∀ task, task ∈ lock.tasks ↔ role task = .waits
  held : ∀ task, role task = .holds → lock.locked = true
  alone : ∀ task other, role task = .holds → role other = .holds → task = other
  busy : lock.locked = true → ∃ task, role task = .holds

namespace Serves

variable {role : Nat → LockRole}

theorem take (serves : lock.Serves role) (free : lock.free = true)
    (outside : role task = .outside) : lock.take.Serves (Function.update role task .holds) := by
  have queued := serves.queued
  have open' : lock.locked = false := by
    have holds := (Bool.and_eq_true_iff.mp free).1
    exact Bool.not_eq_true' _ ▸ holds
  have nobody : ∀ other, role other ≠ .holds := by
    intro other holds
    have held := serves.held other holds
    rw [open'] at held
    cases held
  refine ⟨serves.sound.take free, ?_, fun _ _ => rfl, ?_,
    fun _ => ⟨task, Function.update_self _ _ _⟩⟩
  · intro other
    show other ∈ lock.tasks ↔ _
    rw [queued, Function.update_apply]
    grind
  · intro first second
    rw [Function.update_apply, Function.update_apply]
    grind

theorem enqueue (serves : lock.Serves role) (busy : lock.free = false)
    (outside : role task = .outside) :
    (lock.enqueue task).Serves (Function.update role task .waits) := by
  have queued := serves.queued
  have held := serves.held
  have alone := serves.alone
  have fresh : task ∉ lock.tasks := by
    rw [queued, outside]
    exact LockRole.noConfusion
  refine ⟨serves.sound.enqueue busy fresh, ?_, ?_, ?_, ?_⟩
  · intro other
    unfold tasks AsyncLock.enqueue
    rw [List.map_append, List.mem_append, Function.update_apply]
    show other ∈ lock.tasks ∨ other ∈ [task] ↔ _
    rw [queued, List.mem_singleton]
    grind
  · intro other
    rw [Function.update_apply]
    show _ → lock.locked = true
    grind
  · intro first second
    rw [Function.update_apply, Function.update_apply]
    grind
  · intro locked
    obtain ⟨holder, holds⟩ := serves.busy locked
    refine ⟨holder, (Function.update_of_ne ?_ _ _).trans holds⟩
    rintro rfl
    rw [outside] at holds
    cases holds

theorem cancel (serves : lock.Serves role) (task : Nat) : (lock.cancel task).Serves role :=
  ⟨serves.sound.cancel task, fun other => @cancel_tasks lock task ▸ serves.queued other,
    serves.held, serves.alone, serves.busy⟩

theorem acquired (serves : lock.Serves role) (acquired : (lock.resume task).2 = .acquired) :
    (lock.resume task).1.Serves (Function.update role task .holds) := by
  have queued := serves.queued
  obtain ⟨free, taken⟩ := serves.sound.resume_acquired acquired
  have nobody : ∀ other, role other ≠ .holds := by
    intro other holds
    have held := serves.held other holds
    rw [free] at held
    cases held
  refine ⟨serves.sound.resume task, ?_, fun _ _ => taken, ?_,
    fun _ => ⟨task, Function.update_self _ _ _⟩⟩
  · intro other
    rw [serves.sound.resume_tasks (ne_of_eq_of_ne acquired Resumed.noConfusion), queued,
      Function.update_apply]
    grind
  · intro first second
    rw [Function.update_apply, Function.update_apply]
    grind

theorem cancelled (serves : lock.Serves role) (cancelled : (lock.resume task).2 = .cancelled) :
    (lock.resume task).1.Serves (Function.update role task .outside) := by
  have queued := serves.queued
  have held := serves.held
  have alone := serves.alone
  have waits := (queued task).mp (mem_of_resume (ne_of_eq_of_ne cancelled Resumed.noConfusion))
  refine ⟨serves.sound.resume task, ?_, ?_, ?_, ?_⟩
  · intro other
    rw [serves.sound.resume_tasks (ne_of_eq_of_ne cancelled Resumed.noConfusion), queued,
      Function.update_apply]
    grind
  · intro other
    rw [Function.update_apply, serves.sound.resume_cancelled cancelled]
    grind
  · intro first second
    rw [Function.update_apply, Function.update_apply]
    grind
  · rw [serves.sound.resume_cancelled cancelled]
    intro locked
    obtain ⟨holder, holds⟩ := serves.busy locked
    refine ⟨holder, (Function.update_of_ne ?_ _ _).trans holds⟩
    rintro rfl
    rw [waits] at holds
    cases holds

theorem release (serves : lock.Serves role) (holds : role task = .holds) :
    lock.release.Serves (Function.update role task .outside) := by
  have queued := serves.queued
  have alone := serves.alone
  have nobody : ∀ other, Function.update role task .outside other ≠ .holds := by
    intro other
    rw [Function.update_apply]
    grind
  refine ⟨serves.sound.release (serves.held task holds), ?_, ?_, ?_, fun absurd => nomatch absurd⟩
  · intro other
    rw [release_tasks, queued, Function.update_apply]
    grind
  · exact fun other now => absurd now (nobody other)
  · exact fun other _ now => absurd now (nobody other)

end Serves

end AsyncLock

end BobbyBotique
