import BobbyBotique.Foundation.AsyncSemaphore
import BobbyBotique.Foundation.Run
import BobbyBotique.Foundation.Window
import Mathlib.Algebra.Order.Field.Rat
import Mathlib.Data.List.TakeWhile
import Mathlib.Tactic.Linarith
import Mathlib.Tactic.NormNum

/-!
# The limiter of image requests

`_FtaImageRateLimiter`: a semaphore of one permit and a window of the last sixty
seconds.  A task waits for the permit, and may then sleep with it until the window has
room.  Tasks come, run on and are cancelled in any order; each reads the monotonic
clock when it has the permit and when it enters the window.
-/

namespace BobbyBotique.Daily

/-- The limiter with the tasks that sleep in `acquire`, each with the instant its sleep
ends, the tasks that hold it, and the numbered acquisitions, newest first. -/
structure Limiter where
  semaphore : AsyncSemaphore
  window : List ℚ
  sleeping : List ℚ
  holding : Nat
  clock : ℚ
  completed : List (Nat × ℚ)
  /-- The calls of `acquire` that ended by an exception while they had the permit. -/
  failed : Nat

inductive LimiterLabel where
  | acquire (now stamp : ℚ)
  | resume (place : Nat) (now stamp : ℚ)
  | wake (place : Nat) (now stamp : ℚ)
  | cancelWaiting (place : Nat)
  | cancelSleeping (place : Nat)
  | release

namespace Limiter

def start (clock : ℚ) : Limiter := ⟨.create 1, [], [], 0, clock, [], 0⟩

def expired (now stamp : ℚ) : Bool := decide (stamp ≤ now - 60)

/-- The loop over `popleft`. -/
def purge (window : List ℚ) (now : ℚ) : List ℚ := window.dropWhile (expired now)

def complete (limiter : Limiter) (window : List ℚ) (stamp : ℚ) : Limiter :=
  { limiter with
    window := window ++ [stamp]
    holding := limiter.holding + 1
    completed := (limiter.completed.length, stamp) :: limiter.completed }

/-- `acquire` from where it has the permit. -/
def admitTask (maxPerMin : Nat) (limiter : Limiter) (now stamp : ℚ) : Limiter :=
  let window := purge limiter.window now
  if maxPerMin ≤ window.length then
    match window with
    | [] => { limiter with window := [], failed := limiter.failed + 1 }
    | oldest :: _ =>
      let waitSec := 60 - (now - oldest)
      if 0 < waitSec then
        { limiter with window, sleeping := limiter.sleeping ++ [now + waitSec] }
      else limiter.complete (purge window stamp) stamp
  else limiter.complete window stamp

/-- The clock does not run back. -/
def Timely (limiter : Limiter) (now stamp : ℚ) : Prop := limiter.clock ≤ now ∧ now ≤ stamp

instance (limiter : Limiter) (now stamp : ℚ) : Decidable (limiter.Timely now stamp) :=
  inferInstanceAs (Decidable (_ ∧ _))

def step (maxPerMin : Nat) (limiter : Limiter) : LimiterLabel → Limiter
  | .acquire now stamp =>
    if limiter.Timely now stamp then
      let (semaphore, through) := limiter.semaphore.acquire
      let next := { limiter with semaphore, clock := stamp }
      if through then next.admitTask maxPerMin now stamp else next
    else limiter
  | .resume place now stamp =>
    if limiter.Timely now stamp then
      let (semaphore, resumed) := limiter.semaphore.resume place
      let next := { limiter with semaphore, clock := stamp }
      if resumed = .acquired then next.admitTask maxPerMin now stamp else next
    else limiter
  | .wake place now stamp =>
    if limiter.Timely now stamp then
      match limiter.sleeping[place]? with
      | none => limiter
      | some until' =>
        if until' ≤ now then
          complete { limiter with sleeping := limiter.sleeping.eraseIdx place, clock := stamp }
            (purge limiter.window now) stamp
        else limiter
    else limiter
  | .cancelWaiting place => { limiter with semaphore := limiter.semaphore.cancel place }
  | .cancelSleeping place =>
    if place < limiter.sleeping.length then
      { limiter with
        sleeping := limiter.sleeping.eraseIdx place
        failed := limiter.failed + 1 }
    else limiter
  | .release =>
    if 0 < limiter.holding then
      { limiter with
        semaphore := limiter.semaphore.release
        holding := limiter.holding - 1 }
    else limiter

/-- No task holds the limiter or is inside `acquire`. -/
def Idle (limiter : Limiter) : Prop :=
  limiter.holding = 0 ∧ limiter.sleeping = [] ∧ limiter.semaphore.waiters = []

/-- No task is cancelled in its sleep. -/
def Undisturbed (limiter : Limiter) (label : LimiterLabel) : Prop :=
  ∀ place, label = .cancelSleeping place → limiter.sleeping.length ≤ place

/-! ## The window -/

/-- The window holds the acquisitions of the last sixty seconds, and no minute more of
them than it may. -/
structure Logged (maxPerMin : Nat) (window : List ℚ) (completed : List (Nat × ℚ)) (clock : ℚ) :
    Prop where
  dated : Window.Dated clock completed
  serial : ∀ use ∈ completed, use.1 < completed.length
  recent : ∃ kept old, completed = kept ++ old ∧ window = (kept.map Prod.snd).reverse ∧
    ∀ use ∈ old, use.2 + 60 ≤ clock
  bounded : Window.Bounded 60 maxPerMin completed

variable {maxPerMin : Nat} {limiter : Limiter} {window : List ℚ} {completed : List (Nat × ℚ)}
  {clock now stamp : ℚ}

theorem logged_start : Logged maxPerMin [] [] clock :=
  ⟨Window.dated_nil clock, nofun, ⟨[], [], rfl, rfl, nofun⟩, Window.bounded_nil 60 maxPerMin⟩

theorem Logged.later (logged : Logged maxPerMin window completed clock) (le : clock ≤ now) :
    Logged maxPerMin window completed now := by
  obtain ⟨kept, old, whole, same, past⟩ := logged.recent
  exact ⟨logged.dated.later le, logged.serial,
    ⟨kept, old, whole, same, fun use member => (past use member).trans le⟩, logged.bounded⟩

theorem Logged.purge (logged : Logged maxPerMin window completed now) :
    Logged maxPerMin (Limiter.purge window now) completed now := by
  obtain ⟨kept, old, whole, same, past⟩ := logged.recent
  have split : window.takeWhile (expired now) ++ Limiter.purge window now = window :=
    List.takeWhile_append_dropWhile
  have backwards : kept.map Prod.snd =
      (Limiter.purge window now).reverse ++ (window.takeWhile (expired now)).reverse := by
    rw [← List.reverse_append, split, same, List.reverse_reverse]
  obtain ⟨recent, gone, cut, first, second⟩ := List.map_eq_append_iff.mp backwards
  refine ⟨logged.dated, logged.serial, ⟨recent, gone ++ old, ?_, ?_, ?_⟩, logged.bounded⟩
  · rw [whole, cut, List.append_assoc]
  · rw [first, List.reverse_reverse]
  · refine List.forall_mem_append.mpr ⟨fun use member => ?_, past⟩
    have dropped : use.2 ∈ window.takeWhile (expired now) := by
      rw [← List.mem_reverse, ← second]
      exact List.mem_map_of_mem member
    have over' : expired now use.2 = true := List.mem_takeWhile_imp dropped
    have past' := of_decide_eq_true over'
    linarith

theorem Logged.complete (logged : Logged maxPerMin window completed now) (le : now ≤ stamp)
    (room : window.length < maxPerMin) :
    Logged maxPerMin (window ++ [stamp]) ((completed.length, stamp) :: completed) stamp := by
  obtain ⟨kept, old, whole, same, past⟩ := logged.recent
  have fresh : completed.length ∉ completed.map Prod.fst := by
    intro member
    obtain ⟨use, among, serial⟩ := List.mem_map.mp member
    exact absurd (logged.serial use among) (by omega)
  have dated := (logged.dated.later le).spend fresh
  have covered : ∀ use ∈ (completed.length, stamp) :: completed, stamp < use.2 + 60 →
      use.1 ∈ completed.length :: kept.map Prod.fst := by
    refine List.forall_mem_cons.mpr ⟨fun _ => List.mem_cons_self, fun use member recent => ?_⟩
    rw [whole] at member
    rcases List.mem_append.mp member with live | gone
    · exact List.mem_cons_of_mem _ (List.mem_map_of_mem live)
    · have past' := past use gone
      exact absurd recent (by linarith)
  have fits : (completed.length :: kept.map Prod.fst).length ≤ maxPerMin := by
    rw [same, List.length_reverse, List.length_map] at room
    rw [List.length_cons, List.length_map]
    exact room
  refine ⟨dated, ?_, ⟨(completed.length, stamp) :: kept, old, ?_, ?_, ?_⟩,
    logged.bounded.spend dated covered fits⟩
  · refine List.forall_mem_cons.mpr ⟨Nat.lt_succ_self _, fun use member => ?_⟩
    exact Nat.lt_succ_of_lt (logged.serial use member)
  · rw [whole, List.cons_append]
  · rw [same, List.map_cons, List.reverse_cons]
  · exact fun use member => (past use member).trans le

/-! ## Steps -/

structure Sound (maxPerMin : Nat) (limiter : Limiter) : Prop where
  permits : limiter.semaphore.permits + limiter.sleeping.length + limiter.holding +
    limiter.failed = 1
  logged : Logged maxPerMin limiter.window limiter.completed limiter.clock
  short : limiter.window.length ≤ maxPerMin
  /-- The oldest entry leaves the window when the sleep ends. -/
  sleeps : ∀ until' ∈ limiter.sleeping, ∃ oldest rest,
    limiter.window = oldest :: rest ∧ until' = oldest + 60

theorem purge_length (window : List ℚ) (now : ℚ) : (purge window now).length ≤ window.length :=
  (List.dropWhile_sublist _).length_le

theorem purge_young {window rest : List ℚ} {now oldest : ℚ}
    (same : purge window now = oldest :: rest) : now - 60 < oldest := by
  have head := List.head?_dropWhile_not (expired now) window
  rw [← purge, same] at head
  exact lt_of_not_ge (of_decide_eq_false head)

theorem admitTask_sound (spare : limiter.semaphore.permits = 0) (awake : limiter.sleeping = [])
    (nobody : limiter.holding = 0) (good : limiter.failed = 0)
    (logged : Logged maxPerMin limiter.window limiter.completed now) (le : now ≤ stamp)
    (clock : limiter.clock = stamp) (short : limiter.window.length ≤ maxPerMin) :
    Sound maxPerMin (limiter.admitTask maxPerMin now stamp) := by
  have purged := logged.purge
  have shorter := (purge_length limiter.window now).trans short
  have enter : ∀ {window : List ℚ}, Logged maxPerMin window limiter.completed now →
      window.length < maxPerMin → Sound maxPerMin (limiter.complete window stamp) := by
    intro window logged room
    refine ⟨?_, ?_, ?_, ?_⟩
    · simp only [complete]
      rw [spare, awake, nobody, good]
      rfl
    · simp only [complete]
      rw [clock]
      exact logged.complete le room
    · simp only [complete, List.length_append, List.length_singleton]
      exact room
    · simp only [complete]
      rw [awake]
      nofun
  unfold admitTask
  dsimp only
  split
  · next full =>
    split
    · next empty =>
      rw [empty] at purged
      refine ⟨?_, ?_, Nat.zero_le _, ?_⟩
      · rw [spare, awake, nobody, good]
        rfl
      · rw [clock]
        exact purged.later le
      · rw [awake]
        nofun
    · next oldest rest same =>
      split
      · refine ⟨?_, ?_, ?_, ?_⟩
        · rw [spare, awake, nobody, good]
          rfl
        · rw [clock]
          exact purged.later le
        · exact shorter
        · rw [awake]
          refine List.forall_mem_singleton.mpr ⟨oldest, rest, same, ?_⟩
          linarith
      · next over' =>
        -- An entry that was not purged is younger than a minute.
        have young := purge_young same
        exact absurd over' (not_not_intro (by linarith))
  · next room => exact enter purged (Nat.lt_of_not_le room)

theorem admitTask_failed (positive : 0 < maxPerMin) :
    (limiter.admitTask maxPerMin now stamp).failed = limiter.failed := by
  unfold admitTask
  dsimp only
  split
  · next full =>
    split
    · next empty =>
      rw [empty] at full
      exact absurd full (Nat.not_le_of_lt positive)
    · split
      · rfl
      · rfl
  · rfl

/-- A task that was given the permit found nobody with it. -/
theorem Sound.alone (sound : limiter.Sound maxPerMin) {semaphore : AsyncSemaphore}
    (taken : semaphore.permits + 1 = limiter.semaphore.permits) :
    semaphore.permits = 0 ∧ limiter.sleeping = [] ∧ limiter.holding = 0 ∧ limiter.failed = 0 := by
  have permits := sound.permits
  refine ⟨by omega, List.length_eq_zero_iff.mp (by omega), by omega, by omega⟩

/-- What a task does that ran on in the semaphore. -/
theorem Sound.proceeds (sound : limiter.Sound maxPerMin) (timely : limiter.Timely now stamp)
    {semaphore : AsyncSemaphore} {through : Prop} [Decidable through]
    (kept : semaphore.permits + (if through then 1 else 0) = limiter.semaphore.permits) :
    Sound maxPerMin (if through then
      admitTask maxPerMin { limiter with semaphore, clock := stamp } now stamp
      else { limiter with semaphore, clock := stamp }) := by
  by_cases went : through
  · rw [if_pos went] at kept ⊢
    obtain ⟨spare, awake, nobody, good⟩ := sound.alone kept
    exact admitTask_sound spare awake nobody good (sound.logged.later timely.1) timely.2 rfl
      sound.short
  · rw [if_neg went] at kept ⊢
    refine ⟨?_, sound.logged.later (timely.1.trans timely.2), sound.short, sound.sleeps⟩
    have permits := sound.permits
    simp only
    omega

theorem Sound.wake (sound : limiter.Sound maxPerMin) (timely : limiter.Timely now stamp)
    {place : Nat} {until' : ℚ} (found : limiter.sleeping[place]? = some until')
    (slept : until' ≤ now) :
    Sound maxPerMin (complete
      { limiter with sleeping := limiter.sleeping.eraseIdx place, clock := stamp }
      (purge limiter.window now) stamp) := by
  obtain ⟨inside, _⟩ := List.getElem?_eq_some_iff.mp found
  have permits := sound.permits
  have one : limiter.sleeping.length = 1 := by omega
  have none : limiter.sleeping.eraseIdx place = [] := by
    apply List.length_eq_zero_iff.mp
    rw [List.length_eraseIdx_of_lt inside, one]
  obtain ⟨oldest, rest, window, ends⟩ := sound.sleeps until' (List.mem_of_getElem? found)
  have dropped : purge limiter.window now = purge rest now := by
    rw [window, purge, List.dropWhile_cons_of_pos]
    · rfl
    · refine decide_eq_true ?_
      linarith
  have room : (purge limiter.window now).length < maxPerMin := by
    have short := sound.short
    rw [window, List.length_cons] at short
    rw [dropped]
    exact Nat.lt_of_le_of_lt (purge_length rest now) short
  have logged := (sound.logged.later timely.1).purge
  refine ⟨?_, logged.complete timely.2 room, ?_, ?_⟩
  · simp only [complete, none, List.length_nil]
    omega
  · simp only [complete, List.length_append, List.length_singleton]
    exact room
  · simp only [complete, none]
    nofun

theorem Sound.step (sound : limiter.Sound maxPerMin) (label : LimiterLabel) :
    Sound maxPerMin (limiter.step maxPerMin label) := by
  cases label with
  | acquire now stamp =>
    unfold Limiter.step
    dsimp only
    split
    · next timely => exact sound.proceeds timely AsyncSemaphore.acquire_permits
    · exact sound
  | resume place now stamp =>
    unfold Limiter.step
    dsimp only
    split
    · next timely => exact sound.proceeds timely (AsyncSemaphore.resume_permits place)
    · exact sound
  | wake place now stamp =>
    unfold Limiter.step
    dsimp only
    split
    · next timely =>
      split
      · exact sound
      · next until' found =>
        split
        · next slept => exact sound.wake timely found slept
        · exact sound
    · exact sound
  | cancelWaiting place =>
    refine ⟨?_, sound.logged, sound.short, sound.sleeps⟩
    have permits := sound.permits
    rw [Limiter.step, AsyncSemaphore.cancel_permits]
    exact permits
  | cancelSleeping place =>
    unfold Limiter.step
    dsimp only
    split
    · next inside =>
      refine ⟨?_, sound.logged, sound.short, fun until' member => ?_⟩
      · have permits := sound.permits
        simp only [List.length_eraseIdx_of_lt inside]
        omega
      · exact sound.sleeps until' (List.mem_of_mem_eraseIdx member)
    · exact sound
  | release =>
    unfold Limiter.step
    dsimp only
    split
    · next held =>
      refine ⟨?_, sound.logged, sound.short, sound.sleeps⟩
      have permits := sound.permits
      simp only [AsyncSemaphore.release_permits]
      omega
    · exact sound

theorem start_sound (maxPerMin : Nat) (clock : ℚ) : Sound maxPerMin (start clock) :=
  ⟨rfl, logged_start, Nat.zero_le _, nofun⟩

theorem sound_run (maxPerMin : Nat) (clock : ℚ) (labels : List LimiterLabel) :
    Sound maxPerMin (Run.run (step maxPerMin) (start clock) labels) :=
  Run.run_keeps (Sound maxPerMin) (fun _ label sound => sound.step label)
    (start_sound maxPerMin clock) labels

/-- A step fails an acquire exactly where it cancels a task in its sleep. -/
theorem step_failed (positive : 0 < maxPerMin) (limiter : Limiter) (label : LimiterLabel) :
    limiter.Undisturbed label ∧ (limiter.step maxPerMin label).failed = limiter.failed ∨
      ¬limiter.Undisturbed label ∧ limiter.failed < (limiter.step maxPerMin label).failed := by
  cases label with
  | acquire now stamp =>
    refine .inl ⟨nofun, ?_⟩
    unfold step
    dsimp only
    split
    · split
      · exact admitTask_failed positive
      · rfl
    · rfl
  | resume place now stamp =>
    refine .inl ⟨nofun, ?_⟩
    unfold step
    dsimp only
    split
    · split
      · exact admitTask_failed positive
      · rfl
    · rfl
  | wake place now stamp =>
    refine .inl ⟨nofun, ?_⟩
    unfold step
    dsimp only
    split
    · split
      · rfl
      · split
        · rfl
        · rfl
    · rfl
  | cancelWaiting place => exact .inl ⟨nofun, rfl⟩
  | cancelSleeping place =>
    by_cases inside : place < limiter.sleeping.length
    · refine .inr ⟨fun undisturbed => ?_, ?_⟩
      · exact absurd (undisturbed place rfl) (Nat.not_le_of_lt inside)
      · rw [step, if_pos inside]
        exact Nat.lt_succ_self _
    · refine .inl ⟨fun other same => ?_, ?_⟩
      · cases same
        exact Nat.le_of_not_lt inside
      · rw [step, if_neg inside]
  | release =>
    refine .inl ⟨nofun, ?_⟩
    unfold step
    dsimp only
    split
    · rfl
    · rfl

theorem run_failed (positive : 0 < maxPerMin) (labels : List LimiterLabel) (limiter : Limiter) :
    limiter.failed ≤ (Run.run (step maxPerMin) limiter labels).failed ∧
      ((Run.run (step maxPerMin) limiter labels).failed = limiter.failed ↔
        Run.Along (step maxPerMin) Undisturbed limiter labels) := by
  induction labels generalizing limiter with
  | nil => exact ⟨Nat.le_refl _, ⟨fun _ => trivial, fun _ => rfl⟩⟩
  | cons label rest ih =>
    obtain ⟨more, exact'⟩ := ih (limiter.step maxPerMin label)
    rw [Run.run_cons]
    obtain ⟨undisturbed, same⟩ | ⟨disturbed, failed⟩ := step_failed positive limiter label
    · rw [same] at more exact'
      exact ⟨more, exact'.trans ⟨fun along => ⟨undisturbed, along⟩, fun along => along.2⟩⟩
    · refine ⟨by omega, ⟨fun equal => absurd equal (by omega), fun along => ?_⟩⟩
      exact absurd along.1 disturbed

/-- While nobody holds it or waits for it, the limiter is free unless an acquire failed. -/
theorem Sound.free_iff (sound : limiter.Sound maxPerMin) (idle : limiter.Idle) :
    limiter.semaphore.locked = false ↔ limiter.failed = 0 := by
  obtain ⟨nobody, awake, none⟩ := idle
  have permits := sound.permits
  rw [nobody, awake, AsyncSemaphore.permits, none] at permits
  have value : limiter.semaphore.value + limiter.failed = 1 := permits
  rw [AsyncSemaphore.locked, none, List.any_nil, Bool.or_false, beq_eq_false_iff_ne]
  omega

end Limiter

/-- In every run at most one task holds the limiter and no minute sees more acquisitions
than it may; and the limiter stays acquirable exactly in the runs that cancel no task in
its sleep. -/
theorem limiter_law (maxPerMin : Nat) (positive : 0 < maxPerMin) (clock : ℚ)
    (labels : List LimiterLabel) :
    let limiter := Run.run (Limiter.step maxPerMin) (.start clock) labels
    limiter.holding ≤ 1 ∧
    Window.Bounded 60 maxPerMin limiter.completed ∧
    (limiter.Idle → (limiter.semaphore.locked = false ↔
      Run.Along (Limiter.step maxPerMin) Limiter.Undisturbed (.start clock) labels)) := by
  intro limiter
  have sound : limiter.Sound maxPerMin := Limiter.sound_run maxPerMin clock labels
  refine ⟨?_, sound.logged.bounded, fun idle => ?_⟩
  · have permits := sound.permits
    omega
  · exact (sound.free_iff idle).trans (Limiter.run_failed positive labels (.start clock)).2

theorem limiter_law_once :
    (Run.run (Limiter.step 1) (.start 0) [.acquire 0 0, .release]).semaphore.locked = false := by
  have law := limiter_law 1 (by decide) 0 [.acquire 0 0, .release]
  refine (law.2.2 ?_).mpr ?_
  · exact ⟨by rfl, by rfl, by rfl⟩
  · exact ⟨nofun, nofun, trivial⟩

/-- A task that is cancelled in its sleep takes the permit with it. -/
theorem permit_lost :
    ¬∀ labels : List LimiterLabel, (Run.run (Limiter.step 1) (.start 0) labels).Idle →
        (Run.run (Limiter.step 1) (.start 0) labels).semaphore.locked = false := by
  intro always
  have asleep : Run.run (Limiter.step 1) (.start 0) [.acquire 0 0, .release, .acquire 1 1] =
      ⟨⟨0, []⟩, [0], [60], 0, 1, [(0, 0)], 0⟩ := by
    norm_num [Run.run, Limiter.step, Limiter.start, Limiter.Timely, AsyncSemaphore.create,
      AsyncSemaphore.acquire, AsyncSemaphore.locked, AsyncSemaphore.release,
      AsyncSemaphore.wakeUpNext, AsyncSemaphore.waits, Limiter.admitTask, Limiter.purge,
      Limiter.expired, Limiter.complete]
  have free := always [.acquire 0 0, .release, .acquire 1 1, .cancelSleeping 0]
  rw [show [LimiterLabel.acquire 0 0, .release, .acquire 1 1, .cancelSleeping 0] =
    [.acquire 0 0, .release, .acquire 1 1] ++ [.cancelSleeping 0] from rfl,
    Run.run_append, asleep] at free
  exact absurd (free ⟨rfl, rfl, rfl⟩) (by decide)

end BobbyBotique.Daily
