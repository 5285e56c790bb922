import BobbyBotique.Foundation.Run
import Mathlib.Data.Rat.Defs

/-!
# The circuit breaker

One `CircuitBreaker` and the calls that run under it.  Its lock is never held across
a suspension, so a call is two steps: it enters, and at some later moment its
function ends, with a result, an error or a cancellation.  The operator's
transitions and the monitor come at any moment between.  Readings of the wall
clock are arbitrary.
-/

namespace BobbyBotique.Providers

inductive CircuitState where
  | closed
  | opened
  | halfOpen
  deriving DecidableEq, Repr

structure CircuitBreakerConfig where
  failureThreshold : Nat
  recoveryTimeout : ℚ
  maxFailures : Nat

structure CircuitBreaker where
  state : CircuitState
  generation : Nat
  statsGeneration : Nat
  failureCount : Nat
  lastFailureTime : ℚ
  lastSuccessTime : ℚ
  totalRequests : Nat
  totalFailures : Nat
  totalSuccesses : Nat
  halfOpenProbeActive : Bool

/-- A call whose function runs, and whether it was let in to probe. -/
structure BreakerCall where
  generation : Nat
  statsGeneration : Nat
  probe : Bool
  deriving DecidableEq

/-- What `isinstance` finds of a raised error. -/
structure BreakerError where
  isException : Bool
  isIgnored : Bool
  isExpected : Bool

def BreakerError.expectedFailure (error : BreakerError) : Bool :=
  error.isException && !error.isIgnored && error.isExpected

inductive CallOutcome where
  | returned
  | raised (error : BreakerError)

inductive CircuitBreakerOpenError where
  | probeInFlight
  | cooling (sinceFailure resetIn : ℚ)
  deriving DecidableEq

namespace CircuitBreaker

def create (now : ℚ) : CircuitBreaker := ⟨.closed, 0, 0, 0, 0, now, 0, 0, 0, false⟩

/-- `_set_state`. -/
def setState (breaker : CircuitBreaker) (newState : CircuitState) : CircuitBreaker :=
  { breaker with
    state := newState
    generation :=
      if breaker.state = newState then breaker.generation else breaker.generation + 1 }

def shouldAttemptReset (config : CircuitBreakerConfig) (breaker : CircuitBreaker) (now : ℚ) :
    Bool :=
  breaker.state == .opened && decide (config.recoveryTimeout ≤ now - breaker.lastFailureTime)

/-- The calls counter and the generations that `call` reads before it leaves the lock. -/
def admitCall (breaker : CircuitBreaker) (probe : Bool) : CircuitBreaker × BreakerCall :=
  ({ breaker with totalRequests := breaker.totalRequests + 1 },
    ⟨breaker.generation, breaker.statsGeneration, probe⟩)

/-- `call` up to the start of its function. -/
def enter (config : CircuitBreakerConfig) (breaker : CircuitBreaker) (now : ℚ) :
    Except CircuitBreakerOpenError (CircuitBreaker × BreakerCall) :=
  match breaker.state with
  | .halfOpen => .error .probeInFlight
  | .closed => .ok (breaker.admitCall false)
  | .opened =>
    if breaker.shouldAttemptReset config now then
      if breaker.halfOpenProbeActive then .error .probeInFlight
      else .ok ((setState { breaker with halfOpenProbeActive := true } .halfOpen).admitCall true)
    else
      .error (.cooling (now - breaker.lastFailureTime)
        (config.recoveryTimeout - (now - breaker.lastFailureTime)))

/-- `_on_failure`. -/
def onFailure (config : CircuitBreakerConfig) (breaker : CircuitBreaker) (now : ℚ) :
    CircuitBreaker :=
  let failed := { breaker with
    failureCount := breaker.failureCount + 1
    lastFailureTime := now }
  if config.failureThreshold ≤ failed.failureCount ∧ failed.state ≠ .opened then
    failed.setState .opened
  else failed

/-- The statistics of a function that ended. -/
def countEnd (breaker : CircuitBreaker) (call : BreakerCall) (outcome : CallOutcome) (now : ℚ) :
    CircuitBreaker :=
  if call.statsGeneration = breaker.statsGeneration then
    match outcome with
    | .returned =>
      { breaker with
        lastSuccessTime := now
        totalSuccesses := breaker.totalSuccesses + 1 }
    | .raised error =>
      if error.expectedFailure then { breaker with totalFailures := breaker.totalFailures + 1 }
      else breaker
  else breaker

/-- `call` after its function ended. -/
def endCall (config : CircuitBreakerConfig) (breaker : CircuitBreaker) (call : BreakerCall)
    (outcome : CallOutcome) (now : ℚ) : CircuitBreaker :=
  let counted := breaker.countEnd call outcome now
  if call.generation ≠ counted.generation then counted
  else
    let free := { counted with halfOpenProbeActive := false }
    match outcome with
    | .returned =>
      { (if free.state = .halfOpen then free.setState .closed else free) with
        failureCount := 0 }
    | .raised error =>
      if error.expectedFailure then free.onFailure config now
      else if free.state = .halfOpen then free.setState .opened
      else free

/-- The clean-up of `_monitor_loop`. -/
def monitor (config : CircuitBreakerConfig) (breaker : CircuitBreaker) : CircuitBreaker :=
  if config.maxFailures < breaker.failureCount then
    { breaker with failureCount := min breaker.failureCount config.maxFailures }
  else breaker

/-- What the three transitions by hand begin with. -/
def startGeneration (breaker : CircuitBreaker) : CircuitBreaker :=
  { breaker with
    generation := breaker.generation + 1
    halfOpenProbeActive := false }

def forceOpen (config : CircuitBreakerConfig) (breaker : CircuitBreaker) (now : ℚ) :
    CircuitBreaker :=
  { breaker.startGeneration.setState .opened with
    failureCount := config.failureThreshold
    lastFailureTime := now }

def forceClose (breaker : CircuitBreaker) : CircuitBreaker :=
  { breaker.startGeneration.setState .closed with failureCount := 0 }

def reset (breaker : CircuitBreaker) : CircuitBreaker :=
  { { breaker.startGeneration with statsGeneration := breaker.statsGeneration + 1 }.setState
      .closed with
    failureCount := 0
    lastFailureTime := 0
    totalRequests := 0
    totalFailures := 0
    totalSuccesses := 0 }

end CircuitBreaker

namespace CircuitBreaker

/-- All of a breaker but its statistics and its clock readings. -/
def core (breaker : CircuitBreaker) : CircuitState × Nat × Nat × Bool :=
  (breaker.state, breaker.generation, breaker.failureCount, breaker.halfOpenProbeActive)

variable {config : CircuitBreakerConfig} {breaker : CircuitBreaker} {call : BreakerCall}
  {outcome : CallOutcome} {error : BreakerError} {now : ℚ}

theorem countEnd_core : (breaker.countEnd call outcome now).core = breaker.core := by
  unfold countEnd
  split
  · cases outcome with
    | returned => rfl
    | raised error =>
      dsimp only
      split
      · rfl
      · rfl
  · rfl

theorem countEnd_generation :
    (breaker.countEnd call outcome now).generation = breaker.generation :=
  congrArg (fun core => core.2.1) countEnd_core

theorem countEnd_state : (breaker.countEnd call outcome now).state = breaker.state :=
  congrArg (fun core => core.1) countEnd_core

theorem countEnd_failureCount :
    (breaker.countEnd call outcome now).failureCount = breaker.failureCount :=
  congrArg (fun core => core.2.2.1) countEnd_core

/-- The end of a call of an earlier generation is counted and no more. -/
theorem endCall_stale (stale : call.generation ≠ breaker.generation) :
    (breaker.endCall config call outcome now).core = breaker.core := by
  rw [endCall, if_pos (by rwa [countEnd_generation]), countEnd_core]

theorem endCall_returned (current : call.generation = breaker.generation) :
    (breaker.endCall config call .returned now).core =
      if breaker.state = .halfOpen then (.closed, breaker.generation + 1, 0, false)
      else (breaker.state, breaker.generation, 0, false) := by
  rw [endCall, if_neg (by rw [countEnd_generation]; exact not_not_intro current)]
  simp only [core, countEnd_state]
  split
  · next half => simp [setState, countEnd_generation, half]
  · simp [countEnd_generation]

theorem endCall_failed (current : call.generation = breaker.generation)
    (expected : error.expectedFailure = true) (running : breaker.state ≠ .opened) :
    (breaker.endCall config call (.raised error) now).core =
      if config.failureThreshold ≤ breaker.failureCount + 1 then
        (.opened, breaker.generation + 1, breaker.failureCount + 1, false)
      else (breaker.state, breaker.generation, breaker.failureCount + 1, false) := by
  rw [endCall, if_neg (by rw [countEnd_generation]; exact not_not_intro current)]
  simp only [expected, if_true, onFailure, countEnd_failureCount, countEnd_state, running, ne_eq,
    not_false_eq_true, and_true]
  split
  · simp [core, setState, countEnd_generation, running]
  · simp [core, countEnd_generation]

theorem endCall_other (current : call.generation = breaker.generation)
    (other : error.expectedFailure = false) :
    (breaker.endCall config call (.raised error) now).core =
      if breaker.state = .halfOpen then
        (.opened, breaker.generation + 1, breaker.failureCount, false)
      else (breaker.state, breaker.generation, breaker.failureCount, false) := by
  rw [endCall, if_neg (by rw [countEnd_generation]; exact not_not_intro current)]
  simp only [other, Bool.false_eq_true, if_false, countEnd_state]
  split
  · next half =>
      simp [core, setState, countEnd_generation, countEnd_failureCount, half]
  · simp [core, countEnd_generation, countEnd_failureCount]

end CircuitBreaker

/-! ## Runs -/

/-- A call that ended. -/
structure EndedCall where
  generation : Nat
  outcome : CallOutcome

/-- The breaker with the calls whose function runs and, newest first, those that ended. -/
structure Guarded where
  breaker : CircuitBreaker
  calls : List BreakerCall
  ended : List EndedCall

inductive BreakerLabel where
  | enter (now : ℚ)
  | finish (index : Nat) (outcome : CallOutcome) (now : ℚ)
  | forceOpen (now : ℚ)
  | forceClose
  | reset
  | monitor

/-- The steps of `call`. -/
def BreakerLabel.byCall : BreakerLabel → Bool
  | .enter _ => true
  | .finish .. => true
  | _ => false

/-- The expected failures of a generation since its last success. -/
def failureStreak (generation : Nat) : List EndedCall → Nat
  | [] => 0
  | last :: earlier =>
    if last.generation = generation then
      match last.outcome with
      | .returned => 0
      | .raised error =>
        failureStreak generation earlier + if error.expectedFailure then 1 else 0
    else failureStreak generation earlier

namespace Guarded

def start (now : ℚ) : Guarded := ⟨.create now, [], []⟩

def step (config : CircuitBreakerConfig) (guarded : Guarded) : BreakerLabel → Guarded
  | .enter now =>
    match guarded.breaker.enter config now with
    | .error _ => guarded
    | .ok (breaker, call) => { guarded with breaker, calls := guarded.calls ++ [call] }
  | .finish index outcome now =>
    match guarded.calls[index]? with
    | none => guarded
    | some call =>
      { breaker := guarded.breaker.endCall config call outcome now
        calls := guarded.calls.eraseIdx index
        ended := ⟨call.generation, outcome⟩ :: guarded.ended }
  | .forceOpen now => { guarded with breaker := guarded.breaker.forceOpen config now }
  | .forceClose => { guarded with breaker := guarded.breaker.forceClose }
  | .reset => { guarded with breaker := guarded.breaker.reset }
  | .monitor => { guarded with breaker := guarded.breaker.monitor config }

/-- The calls let in under the generation that holds now. -/
def current (guarded : Guarded) : List BreakerCall :=
  guarded.calls.filter fun call => call.generation = guarded.breaker.generation

/-- The calls that probe for the generation that holds now. -/
def probes (guarded : Guarded) : List BreakerCall :=
  guarded.current.filter BreakerCall.probe

structure Sound (config : CircuitBreakerConfig) (guarded : Guarded) : Prop where
  past : ∀ call ∈ guarded.calls, call.generation ≤ guarded.breaker.generation
  endedPast : ∀ call ∈ guarded.ended, call.generation ≤ guarded.breaker.generation
  closed : guarded.breaker.state = .closed → ∀ call ∈ guarded.current, call.probe = false
  opened : guarded.breaker.state = .opened → guarded.current = []
  halfOpen : guarded.breaker.state = .halfOpen →
    ∃ probe, guarded.current = [probe] ∧ probe.probe = true
  active : guarded.breaker.halfOpenProbeActive = true ↔ guarded.breaker.state = .halfOpen
  count : guarded.breaker.state = .closed → guarded.breaker.failureCount =
        failureStreak guarded.breaker.generation guarded.ended ∧
      guarded.breaker.failureCount < config.failureThreshold
  reached : guarded.breaker.state ≠ .closed → config.failureThreshold ≤ guarded.breaker.failureCount

variable {config : CircuitBreakerConfig} {guarded : Guarded}

theorem step_finish {index : Nat} {call : BreakerCall} (found : guarded.calls[index]? = some call)
    (outcome : CallOutcome) (now : ℚ) :
    guarded.step config (.finish index outcome now) =
      { breaker := guarded.breaker.endCall config call outcome now
        calls := guarded.calls.eraseIdx index
        ended := ⟨call.generation, outcome⟩ :: guarded.ended } := by
  rw [step, found]

theorem failureStreak_fresh {generation : Nat} {ended : List EndedCall}
    (fresh : ∀ call ∈ ended, call.generation ≠ generation) :
    failureStreak generation ended = 0 := by
  induction ended with
  | nil => rfl
  | cons last earlier ih =>
    obtain ⟨other, rest⟩ := List.forall_mem_cons.mp fresh
    rw [failureStreak, if_neg other, ih rest]

/-- A breaker with new statistics only is as sound. -/
theorem Sound.same {breaker : CircuitBreaker} (sound : guarded.Sound config)
    (same : breaker.core = guarded.breaker.core) :
    Sound config { guarded with breaker } := by
  obtain ⟨past, endedPast, closed, opened, halfOpen, active, count, reached⟩ := sound
  simp only [CircuitBreaker.core, Prod.mk.injEq] at same
  obtain ⟨state, generation, failures, probing⟩ := same
  constructor
  all_goals simp only [current, state, generation, failures, probing] at *
  all_goals assumption

/-- A generation starts with no calls and no failures of its own. -/
theorem Sound.renew (sound : guarded.Sound config) (limit : 1 ≤ config.failureThreshold)
    {breaker : CircuitBreaker} {calls : List BreakerCall} {ended : List EndedCall}
    (renewed : guarded.breaker.generation < breaker.generation)
    (kept : ∀ call ∈ calls, call ∈ guarded.calls)
    (earlier : ∀ call ∈ ended, call.generation ≤ guarded.breaker.generation)
    (idle : breaker.halfOpenProbeActive = false)
    (phase : breaker.state = .closed ∧ breaker.failureCount = 0 ∨
      breaker.state = .opened ∧ config.failureThreshold ≤ breaker.failureCount) :
    Sound config ⟨breaker, calls, ended⟩ := by
  have past : ∀ call ∈ calls, call.generation < breaker.generation := fun call member =>
    Nat.lt_of_le_of_lt (sound.past call (kept call member)) renewed
  have past' : ∀ call ∈ ended, call.generation < breaker.generation := fun call member =>
    Nat.lt_of_le_of_lt (earlier call member) renewed
  have empty : Guarded.current ⟨breaker, calls, ended⟩ = [] := by
    refine List.filter_eq_nil_iff.mpr fun call member => ?_
    simpa using Nat.ne_of_lt (past call member)
  refine ⟨fun call member => (past call member).le, fun call member => (past' call member).le,
    fun _ => by simp [empty], fun _ => empty, ?_, ?_, ?_, ?_⟩
  · rcases phase with ⟨state, _⟩ | ⟨state, _⟩ <;> simp [state]
  · rcases phase with ⟨state, _⟩ | ⟨state, _⟩ <;> simp [state, idle]
  · intro state
    rcases phase with ⟨_, none⟩ | ⟨other, _⟩
    · have fresh := failureStreak_fresh fun call member => Nat.ne_of_lt (past' call member)
      exact ⟨by simp [none, fresh], by simp [none]; omega⟩
    · exact absurd (state.symm.trans other) (by decide)
  · intro state
    rcases phase with ⟨closed, _⟩ | ⟨_, reached⟩
    · exact absurd closed state
    · exact reached

theorem sound_start (limit : 1 ≤ config.failureThreshold) (now : ℚ) :
    Sound config (start now) where
  past := nofun
  endedPast := nofun
  closed := nofun
  opened := nofun
  halfOpen := nofun
  active := ⟨nofun, nofun⟩
  count _ := ⟨rfl, limit⟩
  reached open' := absurd rfl open'

theorem Sound.enter (sound : guarded.Sound config) (now : ℚ) :
    Sound config (guarded.step config (.enter now)) := by
  have fresh : ∀ call ∈ guarded.calls, call.generation < guarded.breaker.generation + 1 :=
    fun call member => Nat.lt_succ_of_le (sound.past call member)
  unfold step CircuitBreaker.enter
  cases state : guarded.breaker.state with
  | halfOpen => exact sound
  | closed =>
    refine ⟨?_, sound.endedPast, fun _ => ?_, ?_, ?_, sound.active, sound.count, sound.reached⟩
    · intro call member
      rcases List.mem_append.mp member with before | last
      · exact sound.past call before
      · rw [List.mem_singleton.mp last]
        exact le_rfl
    · intro call member
      obtain ⟨among, now⟩ := List.mem_filter.mp member
      rcases List.mem_append.mp among with before | last
      · exact sound.closed state call (List.mem_filter.mpr ⟨before, now⟩)
      · rw [List.mem_singleton.mp last]
        rfl
    · intro opened
      exact absurd (state.symm.trans opened) (by decide)
    · intro halfOpen
      exact absurd (state.symm.trans halfOpen) (by decide)
  | opened =>
    have idle : guarded.breaker.halfOpenProbeActive = false := by
      rw [Bool.eq_false_iff, ne_eq, sound.active, state]
      decide
    simp only [idle]
    split
    · next breaker call entered =>
      exact sound
    · next breaker call entered =>
      split at entered
      · -- Only the new call belongs to the generation of the probe.
        cases entered
        have none : guarded.calls.filter (fun call =>
            decide (call.generation = guarded.breaker.generation + 1)) = [] := by
          refine List.filter_eq_nil_iff.mpr fun call member => ?_
          simpa using Nat.ne_of_lt (fresh call member)
        have reached := sound.reached (by rw [state]; decide)
        constructor
        all_goals simp [CircuitBreaker.setState, current, none]
        · intro call member
          rcases member with before | rfl
          · exact (fresh call before).le
          · exact le_rfl
        · exact fun call member => (sound.endedPast call member).trans (Nat.le_succ _)
        · exact reached
      · cases entered

/-- Taking one call out of a list of calls. -/
theorem eraseIdx_split {Item : Type} {items : List Item} {index : Nat} {item : Item}
    (found : items[index]? = some item) :
    ∃ before behind, items = before ++ item :: behind ∧
      items.eraseIdx index = before ++ behind := by
  obtain ⟨inside, rfl⟩ := List.getElem?_eq_some_iff.mp found
  refine ⟨items.take index, items.drop (index + 1), ?_, List.eraseIdx_eq_take_drop_succ _ _⟩
  rw [List.getElem_cons_drop, List.take_append_drop]

theorem failureStreak_stale {generation : Nat} {last : EndedCall} {ended : List EndedCall}
    (stale : last.generation ≠ generation) :
    failureStreak generation (last :: ended) = failureStreak generation ended := if_neg stale

theorem failureStreak_returned {generation : Nat} {ended : List EndedCall} :
    failureStreak generation (⟨generation, .returned⟩ :: ended) = 0 := by
  rw [failureStreak, if_pos rfl]

theorem failureStreak_raised {generation : Nat} {error : BreakerError} {ended : List EndedCall} :
    failureStreak generation (⟨generation, .raised error⟩ :: ended) =
      failureStreak generation ended + if error.expectedFailure then 1 else 0 := by
  rw [failureStreak, if_pos rfl]

/-- A call of an earlier generation goes without a trace. -/
theorem Sound.finish_stale (sound : guarded.Sound config) {index : Nat} {call : BreakerCall}
    (found : guarded.calls[index]? = some call)
    (stale : call.generation ≠ guarded.breaker.generation) (outcome : CallOutcome) (now : ℚ) :
    Sound config (guarded.step config (.finish index outcome now)) := by
  obtain ⟨before, behind, whole, erased⟩ := eraseIdx_split found
  have same : current { guarded with calls := before ++ behind } = guarded.current := by
    simp [current, whole, List.filter_append, stale]
  have kept : Sound config
      ⟨guarded.breaker, before ++ behind, ⟨call.generation, outcome⟩ :: guarded.ended⟩ := by
    refine ⟨fun other member => sound.past other ?_, ?_, ?_, ?_, ?_, sound.active, ?_,
      sound.reached⟩
    · exact List.mem_of_mem_eraseIdx (erased ▸ member)
    · exact List.forall_mem_cons.mpr
        ⟨sound.past call (List.mem_of_getElem? found), sound.endedPast⟩
    · exact fun state => same ▸ sound.closed state
    · exact fun state => same ▸ sound.opened state
    · exact fun state => same ▸ sound.halfOpen state
    · rw [failureStreak_stale stale]
      exact sound.count
  rw [step_finish found, erased]
  exact kept.same (CircuitBreaker.endCall_stale stale)

/-- The only call of the generation that probes leaves no other behind. -/
theorem current_erased {index : Nat} {breaker : CircuitBreaker}
    (same : breaker.generation = guarded.breaker.generation) {ended : List EndedCall} :
    ∀ other ∈ current ⟨breaker, guarded.calls.eraseIdx index, ended⟩,
      other ∈ guarded.current := by
  intro other member
  obtain ⟨among, now⟩ := List.mem_filter.mp member
  rw [same] at now
  exact List.mem_filter.mpr ⟨List.mem_of_mem_eraseIdx among, now⟩

/-- While the breaker stays closed its count is the streak of its generation. -/
theorem Sound.settle (sound : guarded.Sound config) (closed : guarded.breaker.state = .closed)
    {index : Nat} {call : BreakerCall}
    (now : call.generation = guarded.breaker.generation) {outcome : CallOutcome}
    {breaker : CircuitBreaker} {failures : Nat}
    (core : breaker.core = (.closed, guarded.breaker.generation, failures, false))
    (streak : failures = failureStreak guarded.breaker.generation
      (⟨guarded.breaker.generation, outcome⟩ :: guarded.ended))
    (below : failures < config.failureThreshold) :
    Sound config
      ⟨breaker, guarded.calls.eraseIdx index, ⟨call.generation, outcome⟩ :: guarded.ended⟩ := by
  simp only [CircuitBreaker.core, Prod.mk.injEq] at core
  obtain ⟨state, generation, count, idle⟩ := core
  refine ⟨fun other member => ?_, ?_, fun _ other member => ?_, ?_, ?_, ?_, fun _ => ?_, ?_⟩
  · rw [generation]
    exact sound.past other (List.mem_of_mem_eraseIdx member)
  · rw [generation]
    exact List.forall_mem_cons.mpr ⟨now.le, sound.endedPast⟩
  · exact sound.closed closed other (current_erased generation other member)
  · intro opened
    exact absurd (state.symm.trans opened) (by decide)
  · intro halfOpen
    exact absurd (state.symm.trans halfOpen) (by decide)
  · simp [state, idle]
  · rw [count, generation, now]
    exact ⟨streak, below⟩
  · exact fun open' => absurd state open'

theorem Sound.finish_current (sound : guarded.Sound config) (limit : 1 ≤ config.failureThreshold)
    {index : Nat} {call : BreakerCall} (found : guarded.calls[index]? = some call)
    (same : call.generation = guarded.breaker.generation) (outcome : CallOutcome) (now : ℚ) :
    Sound config (guarded.step config (.finish index outcome now)) := by
  have among : call ∈ guarded.current :=
    List.mem_filter.mpr ⟨List.mem_of_getElem? found, decide_eq_true same⟩
  rw [step_finish found]
  -- A transition leaves every call of the run to an earlier generation.
  have renewed : ∀ {state : CircuitState} {failures : Nat},
      (guarded.breaker.endCall config call outcome now).core =
        (state, guarded.breaker.generation + 1, failures, false) →
      (state = .closed ∧ failures = 0 ∨ state = .opened ∧ config.failureThreshold ≤ failures) →
      Sound config ⟨guarded.breaker.endCall config call outcome now,
        guarded.calls.eraseIdx index, ⟨call.generation, outcome⟩ :: guarded.ended⟩ := by
    intro state failures core phase
    simp only [CircuitBreaker.core, Prod.mk.injEq] at core
    obtain ⟨rfl, generation, rfl, idle⟩ := core
    refine sound.renew limit (by rw [generation]; exact Nat.lt_succ_self _)
      (fun _ member => List.mem_of_mem_eraseIdx member) ?_ idle phase
    exact List.forall_mem_cons.mpr ⟨same.le, sound.endedPast⟩
  cases state : guarded.breaker.state with
  | opened =>
    rw [sound.opened state] at among
    cases among
  | halfOpen =>
    have reached := sound.reached (by rw [state]; decide)
    cases outcome with
    | returned =>
      exact renewed ((CircuitBreaker.endCall_returned same).trans (if_pos state))
        (.inl ⟨rfl, rfl⟩)
    | raised error =>
      cases expected : error.expectedFailure with
      | true =>
        refine renewed ((CircuitBreaker.endCall_failed same expected
          (by rw [state]; decide)).trans (if_pos (reached.trans (Nat.le_succ _))))
          (.inr ⟨rfl, reached.trans (Nat.le_succ _)⟩)
      | false =>
        refine renewed ((CircuitBreaker.endCall_other same expected).trans (if_pos state))
          (.inr ⟨rfl, reached⟩)
  | closed =>
    obtain ⟨streak, below⟩ := sound.count state
    have half : guarded.breaker.state ≠ .halfOpen := by rw [state]; decide
    cases outcome with
    | returned =>
      have core := @CircuitBreaker.endCall_returned config _ _ now same
      rw [if_neg half, state] at core
      exact sound.settle state same core failureStreak_returned.symm limit
    | raised error =>
      cases expected : error.expectedFailure with
      | true =>
        have core := @CircuitBreaker.endCall_failed config _ _ _ now same
          expected (by rw [state]; decide)
        by_cases full : config.failureThreshold ≤ guarded.breaker.failureCount + 1
        · exact renewed (core.trans (if_pos full)) (.inr ⟨rfl, full⟩)
        · rw [if_neg full, state] at core
          refine sound.settle state same core ?_ (Nat.lt_of_not_le full)
          rw [failureStreak_raised, expected, streak]
          rfl
      | false =>
        have core := @CircuitBreaker.endCall_other config _ _ _ now same expected
        rw [if_neg half, state] at core
        refine sound.settle state same core ?_ below
        rw [failureStreak_raised, expected, streak]
        rfl

theorem Sound.byHand (sound : guarded.Sound config) (limit : 1 ≤ config.failureThreshold)
    {breaker : CircuitBreaker} (renewed : guarded.breaker.generation < breaker.generation)
    (idle : breaker.halfOpenProbeActive = false)
    (phase : breaker.state = .closed ∧ breaker.failureCount = 0 ∨
      breaker.state = .opened ∧ config.failureThreshold ≤ breaker.failureCount) :
    Sound config { guarded with breaker } :=
  sound.renew limit renewed (fun _ member => member) sound.endedPast idle phase

theorem setState_generation (breaker : CircuitBreaker) (state : CircuitState) :
    breaker.generation ≤ (breaker.setState state).generation := by
  unfold CircuitBreaker.setState
  dsimp only
  split
  · exact le_rfl
  · exact Nat.le_succ _

theorem Sound.monitor (sound : guarded.Sound config)
    (limit : config.failureThreshold ≤ config.maxFailures) :
    Sound config (guarded.step config .monitor) := by
  unfold step CircuitBreaker.monitor
  dsimp only
  split
  · next many =>
    -- A closed breaker counts too few failures to be cut.
    have notClosed : guarded.breaker.state ≠ .closed := by
      intro closed
      have below := (sound.count closed).2
      omega
    refine ⟨sound.past, sound.endedPast, sound.closed, sound.opened, sound.halfOpen,
      sound.active, fun closed => absurd closed notClosed, fun _ => ?_⟩
    exact le_min (sound.reached notClosed) limit
  · exact sound

theorem Sound.step (sound : guarded.Sound config) (limit : 1 ≤ config.failureThreshold)
    (limit' : config.failureThreshold ≤ config.maxFailures) (label : BreakerLabel) :
    Sound config (guarded.step config label) := by
  cases label with
  | enter now => exact sound.enter now
  | finish index outcome now =>
    cases found : guarded.calls[index]? with
    | none =>
      rw [Guarded.step, found]
      exact sound
    | some call =>
      by_cases same : call.generation = guarded.breaker.generation
      · exact sound.finish_current limit found same outcome now
      · exact sound.finish_stale found same outcome now
  | forceOpen now =>
    exact sound.byHand limit (setState_generation guarded.breaker.startGeneration .opened) rfl
      (.inr ⟨rfl, le_rfl⟩)
  | forceClose =>
    exact sound.byHand limit (setState_generation guarded.breaker.startGeneration .closed) rfl
      (.inl ⟨rfl, rfl⟩)
  | reset =>
    exact sound.byHand limit (setState_generation
      { guarded.breaker.startGeneration with
        statsGeneration := guarded.breaker.statsGeneration + 1 } .closed) rfl (.inl ⟨rfl, rfl⟩)
  | monitor => exact sound.monitor limit'

theorem sound_run (limit : 1 ≤ config.failureThreshold)
    (limit' : config.failureThreshold ≤ config.maxFailures) (created : ℚ)
    (labels : List BreakerLabel) :
    Sound config (Run.run (Guarded.step config) (start created) labels) :=
  Run.run_keeps (Sound config) (fun _ label sound => sound.step limit limit' label)
    (sound_start limit created) labels

/-- A call opens a closed breaker with the failure that makes the streak full. -/
theorem Sound.opens_iff (sound : guarded.Sound config) (closed : guarded.breaker.state = .closed)
    {label : BreakerLabel} (byCall : label.byCall = true) :
    (guarded.step config label).breaker.state = .opened ↔
      failureStreak guarded.breaker.generation (guarded.step config label).ended =
        config.failureThreshold := by
  obtain ⟨streak, below⟩ := sound.count closed
  have stays : ∀ {next : Guarded}, next.breaker.state = .closed →
      failureStreak guarded.breaker.generation next.ended < config.failureThreshold →
      (next.breaker.state = .opened ↔
        failureStreak guarded.breaker.generation next.ended = config.failureThreshold) := by
    intro next state short
    rw [state]
    exact ⟨nofun, fun full => absurd full (Nat.ne_of_lt short)⟩
  have short : failureStreak guarded.breaker.generation guarded.ended <
      config.failureThreshold := streak ▸ below
  cases label with
  | enter now =>
    rw [Guarded.step, CircuitBreaker.enter, closed]
    exact stays closed short
  | finish index outcome now =>
    cases found : guarded.calls[index]? with
    | none =>
      rw [Guarded.step, found]
      exact stays closed short
    | some call =>
      rw [step_finish found]
      by_cases same : call.generation = guarded.breaker.generation
      · cases outcome with
        | returned =>
          have core := @CircuitBreaker.endCall_returned config _ _ now same
          rw [if_neg (by rw [closed]; decide), closed] at core
          refine stays (congrArg (fun core => core.1) core) ?_
          rw [same, failureStreak_returned]
          omega
        | raised error =>
          rw [same, failureStreak_raised, ← streak]
          cases expected : error.expectedFailure with
          | true =>
            have core := @CircuitBreaker.endCall_failed config _ _ _ now same expected
              (by rw [closed]; decide)
            have state := congrArg (fun core => core.1) core
            by_cases full : config.failureThreshold ≤ guarded.breaker.failureCount + 1
            · rw [if_pos full] at state
              exact ⟨fun _ => Nat.le_antisymm (Nat.succ_le_of_lt below) full, fun _ => state⟩
            · rw [if_neg full, closed] at state
              refine ⟨fun opened => ?_, fun reached => absurd reached.ge full⟩
              cases state.symm.trans opened
          | false =>
            have core := @CircuitBreaker.endCall_other config _ _ _ now same expected
            rw [if_neg (by rw [closed]; decide), closed] at core
            have state := congrArg (fun core => core.1) core
            refine ⟨fun opened => ?_, fun reached => absurd reached (Nat.ne_of_lt below)⟩
            cases state.symm.trans opened
      · refine stays ?_ (by rwa [failureStreak_stale same])
        exact (congrArg (fun core => core.1) (CircuitBreaker.endCall_stale same)).trans closed
  | forceOpen | forceClose | reset | monitor => cases byCall

end Guarded

/-- After every run: the breaker is half open exactly while one call probes for it, and
then lets nobody else in; calls of earlier generations end without effect; a closed
breaker is opened by the failure that completes its streak. -/
theorem breaker_law (config : CircuitBreakerConfig) (limit : 1 ≤ config.failureThreshold)
    (limit' : config.failureThreshold ≤ config.maxFailures) (created : ℚ)
    (labels : List BreakerLabel) :
    let guarded := Run.run (Guarded.step config) (.start created) labels
    (guarded.breaker.state = .halfOpen ↔ ∃ probe, guarded.probes = [probe]) ∧
    guarded.probes.length ≤ 1 ∧
    (guarded.breaker.state = .halfOpen → guarded.current = guarded.probes ∧
      ∀ now, guarded.breaker.enter config now = .error .probeInFlight) ∧
    (∀ index call outcome now, guarded.calls[index]? = some call →
      call.generation ≠ guarded.breaker.generation →
      (guarded.step config (.finish index outcome now)).breaker.core = guarded.breaker.core) ∧
    (guarded.breaker.state = .closed → ∀ label : BreakerLabel, label.byCall = true →
      ((guarded.step config label).breaker.state = .opened ↔
        failureStreak guarded.breaker.generation (guarded.step config label).ended =
          config.failureThreshold)) := by
  intro guarded
  have sound : guarded.Sound config := Guarded.sound_run limit limit' created labels
  have one : guarded.breaker.state = .halfOpen →
      ∃ probe, guarded.current = [probe] ∧ guarded.probes = [probe] := by
    intro half
    obtain ⟨probe, only, probes⟩ := sound.halfOpen half
    exact ⟨probe, only, by simp [Guarded.probes, only, probes]⟩
  have none : guarded.breaker.state ≠ .halfOpen → guarded.probes = [] := by
    intro other
    refine List.filter_eq_nil_iff.mpr fun call member => ?_
    cases state : guarded.breaker.state with
    | closed =>
      rw [sound.closed state call member]
      decide
    | opened =>
      rw [sound.opened state] at member
      cases member
    | halfOpen => exact absurd state other
  refine ⟨⟨fun half => ?_, fun probing => ?_⟩, ?_, fun half => ?_, ?_, ?_⟩
  · obtain ⟨probe, _, probes⟩ := one half
    exact ⟨probe, probes⟩
  · obtain ⟨probe, probes⟩ := probing
    by_contra other
    rw [none other] at probes
    cases probes
  · by_cases half : guarded.breaker.state = .halfOpen
    · obtain ⟨probe, _, probes⟩ := one half
      rw [probes]
      exact le_rfl
    · rw [none half]
      exact Nat.zero_le 1
  · obtain ⟨probe, only, probes⟩ := one half
    refine ⟨only.trans probes.symm, fun now => ?_⟩
    rw [CircuitBreaker.enter, half]
  · intro index call outcome now found stale
    rw [Guarded.step_finish found]
    exact CircuitBreaker.endCall_stale stale
  · exact fun closed label byCall => sound.opens_iff closed byCall

/-- A breaker that opens at the second failure, after one failure. -/
theorem breaker_law_twice :
    let config : CircuitBreakerConfig := ⟨2, 60, 100⟩
    let failure : CallOutcome := .raised ⟨true, false, true⟩
    let guarded := Run.run (Guarded.step config) (.start 0)
      [.enter 1, .enter 2, .finish 0 failure 3]
    (guarded.step config (.finish 0 failure 4)).breaker.state = .opened := by
  intro config failure guarded
  have law := breaker_law config (by decide) (by decide) 0
    [.enter 1, .enter 2, .finish 0 failure 3]
  exact (law.2.2.2.2 (by rfl) (.finish 0 failure 4) rfl).mpr (by rfl)

end BobbyBotique.Providers
