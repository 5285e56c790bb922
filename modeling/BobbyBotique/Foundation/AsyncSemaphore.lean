import BobbyBotique.Foundation.AsyncLock

/-!
# A counting semaphore of an event loop

A release hands its permit to the first waiter that waits still, which holds it from
then on, though its task runs on later.  A waiter that is cancelled after that gives
the permit back.  No operation makes a permit or loses one.
-/

namespace BobbyBotique

/-- A future in the deque, and whether its task was cancelled after it was done. -/
structure SemaphoreWaiter where
  future : Future
  cancelled : Bool
  deriving DecidableEq

structure AsyncSemaphore where
  value : Nat
  waiters : List SemaphoreWaiter

namespace AsyncSemaphore

def create (value : Nat) : AsyncSemaphore := ⟨value, []⟩

def locked (semaphore : AsyncSemaphore) : Bool :=
  semaphore.value == 0 || semaphore.waiters.any fun waiter => waiter.future ≠ .cancelled

/-- The first future that is pending is done. -/
def wakeFirst : List SemaphoreWaiter → List SemaphoreWaiter
  | [] => []
  | waiter :: rest =>
    if waiter.future = .pending then { waiter with future := .done } :: rest
    else waiter :: wakeFirst rest

def waits (semaphore : AsyncSemaphore) : Bool :=
  semaphore.waiters.any fun waiter => waiter.future = .pending

/-- `_wake_up_next`. -/
def wakeUpNext (semaphore : AsyncSemaphore) : AsyncSemaphore :=
  if semaphore.waits then ⟨semaphore.value - 1, wakeFirst semaphore.waiters⟩ else semaphore

/-- The loop at the end of `acquire`, which ends at the latest without a value. -/
def wakeUp : Nat → AsyncSemaphore → AsyncSemaphore
  | 0, semaphore => semaphore
  | rounds + 1, semaphore =>
    if 0 < semaphore.value ∧ semaphore.waits = true then wakeUp rounds semaphore.wakeUpNext
    else semaphore

def release (semaphore : AsyncSemaphore) : AsyncSemaphore :=
  wakeUpNext { semaphore with value := semaphore.value + 1 }

/-- `acquire` up to its suspension; whether it went through. -/
def acquire (semaphore : AsyncSemaphore) : AsyncSemaphore × Bool :=
  if semaphore.locked then
    ({ semaphore with waiters := semaphore.waiters ++ [⟨.pending, false⟩] }, false)
  else ({ semaphore with value := semaphore.value - 1 }, true)

def SemaphoreWaiter.cancel (waiter : SemaphoreWaiter) : SemaphoreWaiter :=
  match waiter.future with
  | .pending => { waiter with future := .cancelled }
  | .done => { waiter with cancelled := true }
  | .cancelled => waiter

/-- The task of the waiter at this place is cancelled. -/
def cancel (semaphore : AsyncSemaphore) (place : Nat) : AsyncSemaphore :=
  { semaphore with waiters := semaphore.waiters.modify place SemaphoreWaiter.cancel }

/-- The task of the waiter at this place runs on. -/
def resume (semaphore : AsyncSemaphore) (place : Nat) : AsyncSemaphore × Resumed :=
  match semaphore.waiters[place]? with
  | none => (semaphore, .waits)
  | some waiter =>
    let left : AsyncSemaphore := { semaphore with waiters := semaphore.waiters.eraseIdx place }
    match waiter.future with
    | .pending => (semaphore, .waits)
    | .cancelled => (wakeUp left.value left, .cancelled)
    | .done =>
      if waiter.cancelled then
        (wakeUp (left.value + 1) { left with value := left.value + 1 }, .cancelled)
      else (wakeUp left.value left, .acquired)

/-! ## Permits -/

/-- The futures that carry a permit. -/
def woken (waiters : List SemaphoreWaiter) : Nat :=
  waiters.countP fun waiter => waiter.future = .done

/-- The permits that the semaphore has, and those on their way to a waiter. -/
def permits (semaphore : AsyncSemaphore) : Nat := semaphore.value + woken semaphore.waiters

variable {semaphore : AsyncSemaphore}

@[simp] theorem permits_mk (value : Nat) (waiters : List SemaphoreWaiter) :
    permits ⟨value, waiters⟩ = value + woken waiters := rfl

theorem woken_wakeFirst {waiters : List SemaphoreWaiter}
    (waits : (waiters.any fun waiter => waiter.future = .pending) = true) :
    woken (wakeFirst waiters) = woken waiters + 1 := by
  induction waiters with
  | nil => cases waits
  | cons waiter rest ih =>
    rw [wakeFirst]
    by_cases pending : waiter.future = .pending
    · rw [if_pos pending]
      simp [woken, pending]
    · have later : (rest.any fun waiter => waiter.future = .pending) = true := by
        simpa [pending] using waits
      rw [if_neg pending]
      have one := ih later
      unfold woken at one ⊢
      rw [List.countP_cons, List.countP_cons, one]
      omega

theorem wakeUpNext_permits (positive : 0 < semaphore.value) :
    semaphore.wakeUpNext.permits = semaphore.permits := by
  unfold wakeUpNext
  split
  · next waits =>
    rw [permits_mk, woken_wakeFirst waits, permits]
    omega
  · rfl

theorem wakeUp_permits (rounds : Nat) (semaphore : AsyncSemaphore) :
    (wakeUp rounds semaphore).permits = semaphore.permits := by
  induction rounds generalizing semaphore with
  | zero => rfl
  | succ rounds ih =>
    rw [wakeUp]
    split
    · next more => rw [ih, wakeUpNext_permits more.1]
    · rfl

theorem release_permits : semaphore.release.permits = semaphore.permits + 1 := by
  have handed : semaphore.release.permits =
      permits { semaphore with value := semaphore.value + 1 } :=
    wakeUpNext_permits (Nat.succ_pos _)
  rw [handed, permits_mk, permits]
  omega

/-- An acquire that goes through takes a permit, one that waits none. -/
theorem acquire_permits :
    semaphore.acquire.1.permits + (if semaphore.acquire.2 then 1 else 0) = semaphore.permits := by
  unfold acquire
  split
  · simp [permits, woken]
  · next free =>
    have some : semaphore.value ≠ 0 := by
      intro none
      simp [locked, none] at free
    simp only [permits, if_true]
    omega

theorem woken_cancel (waiters : List SemaphoreWaiter) (place : Nat) :
    woken (waiters.modify place SemaphoreWaiter.cancel) = woken waiters := by
  induction waiters generalizing place with
  | nil => cases place <;> rfl
  | cons waiter rest ih =>
    cases place with
    | zero =>
      have same : (SemaphoreWaiter.cancel waiter).future = .done ↔ waiter.future = .done := by
        unfold SemaphoreWaiter.cancel
        cases future : waiter.future <;> simp [future]
      rw [List.modify_zero_cons, woken, woken, List.countP_cons, List.countP_cons]
      simp only [same]
    | succ place =>
      have later := ih place
      unfold woken at later ⊢
      rw [List.modify_succ_cons, List.countP_cons, List.countP_cons, later]

theorem cancel_permits (place : Nat) : (semaphore.cancel place).permits = semaphore.permits := by
  rw [cancel, permits, permits, woken_cancel]

theorem woken_eraseIdx {waiters : List SemaphoreWaiter} {place : Nat} {waiter : SemaphoreWaiter}
    (found : waiters[place]? = some waiter) :
    woken (waiters.eraseIdx place) + (if waiter.future = .done then 1 else 0) = woken waiters := by
  induction waiters generalizing place with
  | nil => cases found
  | cons first rest ih =>
    cases place with
    | zero =>
      cases found
      simp [woken, List.countP_cons]
    | succ place =>
      have later := ih found
      unfold woken at later ⊢
      rw [List.eraseIdx_cons_succ, List.countP_cons, List.countP_cons]
      omega

/-- A waiter that goes through keeps the permit that it was handed. -/
theorem resume_permits (place : Nat) :
    (semaphore.resume place).1.permits +
        (if (semaphore.resume place).2 = .acquired then 1 else 0) = semaphore.permits := by
  unfold resume
  cases found : semaphore.waiters[place]? with
  | none => rfl
  | some waiter =>
    have erased := woken_eraseIdx found
    obtain ⟨future, cancelled⟩ := waiter
    cases future with
    | pending => rfl
    | cancelled =>
      have same : woken (semaphore.waiters.eraseIdx place) = woken semaphore.waiters := erased
      simp only [wakeUp_permits, permits_mk, same]
      rfl
    | done =>
      have one : woken (semaphore.waiters.eraseIdx place) + 1 = woken semaphore.waiters :=
        erased
      cases cancelled with
      | true =>
        simp only [if_true, wakeUp_permits, permits_mk]
        rw [permits, ← one, if_neg (by decide)]
        omega
      | false =>
        simp only [Bool.false_eq_true, if_false, if_true, wakeUp_permits, permits_mk]
        rw [permits, ← one]
        omega

end AsyncSemaphore

end BobbyBotique
