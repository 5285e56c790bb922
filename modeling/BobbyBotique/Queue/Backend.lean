import BobbyBotique.Queue.MemoryCommands
import BobbyBotique.Queue.ScriptIndex

/-!
# The two stores behind one interface

`QueueStore` has two implementations.  A state of either is a clock and a
store; both have a ledger of jobs, and a step of either is a step of that
ledger.  Results about jobs are stated here for both at once.
-/

namespace BobbyBotique.Queue

/-- The implementations of `QueueStore`. -/
inductive Backend where
  | memory
  | redis
  deriving DecidableEq

/-- The reply admits a new job. -/
inductive Reply.Accepts : Reply → Prop where
  | new (taskId : Option TaskId) (reason : Option String) :
      Accepts (.admission ⟨.accepted, taskId, reason⟩)

namespace MemoryQueueStore

variable {now : Time} {s : MemoryQueueStore}

/-- A claim that hands out a job hands out the record it has just started. -/
theorem claim_reply (good : s.ledger.WellFormed) {lane : Lane} {ownerToken : String}
    {claim : JobClaim}
    (replied : (s.exec now (.claim lane ownerToken)).1 = .claimed (some claim)) :
    ∃ m, (s.exec now (.claim lane ownerToken)).2.ledger.records.get? claim.snapshot.taskId =
        some m ∧ m.state = .running ∧ m.ownerToken = some ownerToken ∧
      claim = m.claim ownerToken := by
  have clean : (s.sweep now).ledger.WellFormed := (@edits_sweep True now s good).wellFormed good
  have spec := @claim_spec now _ clean lane ownerToken
  change Reply.claimed (((s.sweep now).claim now lane ownerToken).1.map _) = _ at replied
  change ∃ m, (((s.sweep now).claim now lane ownerToken).2).ledger.records.get? _ = _ ∧ _
  generalize (s.sweep now).claim now lane ownerToken = outcome at spec replied ⊢
  obtain ⟨result, t⟩ := outcome
  cases spec with
  | nothing => cases replied
  | @starts u m _ _ _ _ _ _ _ =>
    cases replied
    exact ⟨_, ledger_of_get? (u.jobs.get?_set_self _ _), rfl, rfl, rfl⟩

/-- A retry that admits a child finds an eligible record. -/
theorem retry_reply {taskId : TaskId} {revision : Nat} {actor operationId : String}
    {epoch : Option Int}
    (accepts : (s.exec now (.retryJob taskId revision actor operationId epoch)).1.Accepts) :
    ∃ m, (s.sweep now).ledger.records.get? taskId = some m ∧ m.retryEligible = true ∧
      m.state.active = false := by
  change ((s.sweep now).retryJob now taskId revision actor operationId epoch).1.Accepts at accepts
  unfold retryJob at accepts
  dsimp only at accepts
  split at accepts
  · cases accepts
  · cases accepts
  · cases accepts
  · split at accepts
    · cases accepts
    · next m payload offered =>
        obtain ⟨found, _, _, eligible, ended, _⟩ := retryable?_eq_some offered
        exact ⟨m.toJobRecord, ledger_of_get? found, eligible, ended⟩

/-- A command that sweeps loses every effectful job whose owner let it lapse. -/
theorem exec_loses (good : s.ledger.WellFormed) {command : Command}
    (swept : sweeps command = true) {id : TaskId} {m : JobRecord}
    (found : s.ledger.records.get? id = some m) (effectful : m.effectful = true)
    (owned : m.state.owned = true) (lapsed : m.lapsed now) :
    Ledger.Lost id m.sequence (s.exec now command).2.ledger := by
  have lost := sweep_loses good found effectful owned lapsed
  have sweep : Edits True now .sweep s (s.sweep now) := edits_sweep good
  have own := (@edits_act now _ (sweep.wellFormed good) command).progress (sweep.wellFormed good)
  rw [exec, MemoryQueueStore.swept, if_pos swept]
  exact own.lost ((good.counted id m found).trans (sweep.progress good).counted) lost

end MemoryQueueStore

namespace Script

variable {now : Time} {db : Db}

/-- A claim that hands out a job hands out the record it has just started. -/
theorem claim_reply (good : (ledger db).WellFormed) {lane : Lane} {ownerToken : String}
    {claim : JobClaim}
    (replied : (exec now db (.claim lane ownerToken)).1 = .claimed (some claim)) :
    ∃ m, (ledger (exec now db (.claim lane ownerToken)).2).records.get? claim.snapshot.taskId =
        some m ∧ m.state = .running ∧ m.ownerToken = some ownerToken ∧
      claim = m.claim ownerToken := by
  have clean : (ledger (sweep db now)).WellFormed :=
    (@edits_sweep (fun _ _ => True) now db good).wellFormed good
  have spec := @claim_spec now _ clean lane ownerToken
  simp only [exec, answered, act] at replied ⊢
  generalize Script.claim (sweep db now) now lane ownerToken = outcome at spec replied ⊢
  obtain ⟨result, after⟩ := outcome
  cases spec with
  | nothing => cases replied
  | @starts middle m _ _ _ _ _ _ _ =>
    cases replied
    refine ⟨(started m now ownerToken).toJobRecord, ?_, rfl, rfl, rfl⟩
    refine ledger_of_get? ?_
    change (start middle now lane m ownerToken).jobs.get? (started m now ownerToken).taskId = _
    rw [start_jobs, started_taskId, Dict.get?_set_self]

/-- A retry that admits a child finds an eligible record. -/
theorem retry_reply {taskId : TaskId} {revision : Nat} {actor operationId : String}
    {epoch : Option Int}
    (accepts : (exec now db (.retryJob taskId revision actor operationId epoch)).1.Accepts) :
    ∃ m, (ledger (sweep db now)).records.get? taskId = some m ∧ m.retryEligible = true ∧
      m.state.active = false := by
  simp only [exec, answered, act] at accepts
  unfold retry at accepts
  dsimp only at accepts
  split at accepts
  · cases accepts
  · cases accepts
  · cases accepts
  · split at accepts
    · cases accepts
    · next m selected =>
        obtain ⟨found, _⟩ := Option.filter_eq_some_iff.mp selected
        split at accepts
        · cases accepts
        · next payload offered =>
            obtain ⟨_, ended, eligible, _⟩ := retryable?_eq_some offered
            exact ⟨m.toJobRecord, ledger_of_get? found, eligible, ended⟩

/-- A script that takes all that is due loses every effectful job whose owner let it lapse. -/
theorem exec_loses (good : (ledger db).WellFormed) (indexed : Indexed db) {command : Command}
    (sent : answered now db command = none) (fits : Fits db now) {id : TaskId} {m : JobRecord}
    (found : (ledger db).records.get? id = some m) (effectful : m.effectful = true)
    (owned : m.state.owned = true) (lapsed : m.lapsed now) :
    Ledger.Lost id m.sequence (ledger (exec now db command).2) := by
  let anyone : Db → TaskId → Prop := fun _ _ => True
  have lost := sweep_loses good indexed fits found effectful owned lapsed
  have swept : Edits anyone now .sweep db (sweep db now) := edits_sweep good
  have own : Edits anyone now (.call command) (sweep db now)
      (act now (sweep db now) command).2 :=
    edits_act (swept.wellFormed good) command fun _ _ => trivial
  rw [exec, sent]
  exact own.progress.lost ((good.counted id m found).trans swept.progress.counted) lost

end Script

namespace Backend

/-- A clock and a store. -/
def State : Backend → Type
  | .memory => MemoryMachine
  | .redis => ScriptMachine

def initial : (backend : Backend) → Time → backend.State
  | .memory, clock => MemoryMachine.initial clock
  | .redis, clock => ScriptMachine.initial clock

def step : (backend : Backend) → backend.State → Label → backend.State
  | .memory, state, label => MemoryMachine.step state label
  | .redis, state, label => ScriptMachine.step state label

def reply : (backend : Backend) → backend.State → Command → Reply
  | .memory, state, command => MemoryMachine.reply state command
  | .redis, state, command => ScriptMachine.reply state command

def clock : (backend : Backend) → backend.State → Time
  | .memory, state => MemoryMachine.clock state
  | .redis, state => ScriptMachine.clock state

def ledger : (backend : Backend) → backend.State → Ledger
  | .memory, state => MemoryMachine.ledger state
  | .redis, state => ScriptMachine.ledger state

/-- The record of a job. -/
def record (backend : Backend) (state : backend.State) (id : TaskId) : Option JobRecord :=
  (backend.ledger state).records.get? id

/-- The state a run reaches from an empty store. -/
def after (backend : Backend) (start : Time) (labels : List Label) : backend.State :=
  Run.run backend.step (backend.initial start) labels

/--
The command sweeps everything that is due: the local store looks at every
record, the script takes a batch of each index.
-/
def SweepsAll : (backend : Backend) → backend.State → Command → Prop
  | .memory, _, command => MemoryQueueStore.sweeps command = true
  | .redis, state, command =>
    Script.answered (ScriptMachine.clock state) (ScriptMachine.db state) command = none ∧
      Script.Fits (ScriptMachine.db state) (ScriptMachine.clock state)

/-- What holds of every state a run of the store reaches. -/
def Sound : (backend : Backend) → backend.State → Prop
  | .memory, state => (MemoryMachine.ledger state).WellFormed
  | .redis, state =>
    (ScriptMachine.ledger state).WellFormed ∧ Script.Indexed (ScriptMachine.db state)

/-- No admission of the step takes the id of a record. -/
def Fresh : (backend : Backend) → backend.State → Label → Prop
  | .memory, state, label => MemoryMachine.Fresh state label
  | .redis, state, label => ScriptMachine.Fresh state label

variable {backend : Backend} {state : backend.State}

theorem Sound.wellFormed (sound : backend.Sound state) : (backend.ledger state).WellFormed := by
  cases backend with
  | memory => exact sound
  | redis => exact sound.1

theorem ledger_step (sound : backend.Sound state) (label : Label) :
    Ledger.Step (backend.Fresh state label) (backend.clock state) label (backend.ledger state)
      (backend.ledger (backend.step state label)) := by
  cases backend with
  | memory => exact MemoryMachine.ledger_step state sound label
  | redis => exact ScriptMachine.ledger_step state sound.1 label

theorem Sound.step (sound : backend.Sound state) (label : Label) :
    backend.Sound (backend.step state label) := by
  cases backend with
  | memory => exact (MemoryMachine.ledger_step state sound label).wellFormed sound
  | redis =>
    refine ⟨(ScriptMachine.ledger_step state sound.1 label).wellFormed sound.1, ?_⟩
    cases label with
    | advance elapsed => exact sound.2
    | call command => exact Script.exec_indexed sound.1 sound.2 command

theorem sound_initial (backend : Backend) (start : Time) :
    backend.Sound (backend.initial start) := by
  cases backend with
  | memory => exact MemoryMachine.initial_wellFormed start
  | redis =>
    refine ⟨ScriptMachine.initial_wellFormed start, fun id m found => ?_⟩
    cases found

theorem sound_run (sound : backend.Sound state) (labels : List Label) :
    backend.Sound (Run.run backend.step state labels) :=
  Run.run_keeps backend.Sound (fun _ label sound => sound.step label) sound labels

theorem sound_after (backend : Backend) (start : Time) (labels : List Label) :
    backend.Sound (backend.after start labels) :=
  sound_run (sound_initial backend start) labels

theorem after_append (backend : Backend) (start : Time) (labels : List Label) (label : Label) :
    backend.after start (labels ++ [label]) =
      backend.step (backend.after start labels) label :=
  Run.run_append _ _ _ _

theorem clock_le_step (state : backend.State) (label : Label) :
    backend.clock state ≤ backend.clock (backend.step state label) := by
  cases label with
  | advance elapsed =>
    have later : ∀ time : Int, time ≤ time + (elapsed : Int) := fun time => by omega
    cases backend with
    | memory | redis => exact later _
  | call command => cases backend <;> exact le_rfl

theorem clock_le_run (state : backend.State) (labels : List Label) :
    backend.clock state ≤ backend.clock (Run.run backend.step state labels) := by
  induction labels generalizing state with
  | nil => exact le_rfl
  | cons label rest ih => exact (clock_le_step state label).trans (ih _)

/-- The number of admissions never falls. -/
theorem counted_run (sound : backend.Sound state) (labels : List Label) :
    (backend.ledger state).sequence ≤
      (backend.ledger (Run.run backend.step state labels)).sequence := by
  induction labels generalizing state with
  | nil => exact le_rfl
  | cons label rest ih => exact (ledger_step sound label).counted.trans (ih (sound.step label))

/-- What every transition keeps of a job stays true of it while its record is there. -/
theorem persists_run (holds : JobRecord → Prop)
    (closed : ∀ now cause m next, Move now cause m next → holds m → holds next)
    (sound : backend.Sound state) {id : TaskId} {sequence : Nat}
    (bound : sequence ≤ (backend.ledger state).sequence)
    (initial : ∀ m, backend.record state id = some m → m.sequence = sequence → holds m)
    (labels : List Label) {next : JobRecord}
    (later : backend.record (Run.run backend.step state labels) id = some next)
    (same : next.sequence = sequence) : holds next := by
  induction labels generalizing state with
  | nil => exact initial next later same
  | cons label rest ih =>
    have step := ledger_step sound label
    refine ih (sound.step label) (bound.trans step.counted) ?_ later
    intro m found unchanged
    exact step.persists holds (closed _) bound initial found unchanged

theorem record_call_redis (state : State .redis) (command : Command) (id : TaskId) :
    record .redis (step .redis state (.call command)) id =
      (Script.ledger (Script.exec (ScriptMachine.clock state) (ScriptMachine.db state)
        command).2).records.get? id := rfl

theorem reply_redis (state : State .redis) (command : Command) :
    reply .redis state command =
      (Script.exec (ScriptMachine.clock state) (ScriptMachine.db state) command).1 := rfl

/-- A claim that hands out a job hands out the record it has just started. -/
theorem claim_reply (sound : backend.Sound state) {lane : Lane} {ownerToken : String}
    {claim : JobClaim}
    (replied : backend.reply state (.claim lane ownerToken) = .claimed (some claim)) :
    ∃ m, backend.record (backend.step state (.call (.claim lane ownerToken)))
        claim.snapshot.taskId = some m ∧ m.state = .running ∧ m.ownerToken = some ownerToken ∧
      claim = m.claim ownerToken := by
  cases backend with
  | memory => exact MemoryQueueStore.claim_reply sound replied
  | redis =>
    rw [record_call_redis]
    exact Script.claim_reply sound.1 ((reply_redis state _).symm.trans replied)

/-- A retry that admits a child finds an eligible record after its sweep. -/
theorem retry_reply (sound : backend.Sound state) {taskId : TaskId} {revision : Nat}
    {actor operationId : String} {epoch : Option Int}
    (replied : (backend.reply state
      (.retryJob taskId revision actor operationId epoch)).Accepts) :
    ∃ swept m, Ledger.Progress True (backend.clock state) .sweep (backend.ledger state) swept ∧
      swept.records.get? taskId = some m ∧ m.retryEligible = true ∧
      m.state.active = false := by
  cases backend with
  | memory =>
    obtain ⟨m, found, eligible, ended⟩ := MemoryQueueStore.retry_reply replied
    exact ⟨_, m, (@MemoryQueueStore.edits_sweep True _ _ sound).progress sound, found, eligible,
      ended⟩
  | redis =>
    rw [reply_redis] at replied
    obtain ⟨m, found, eligible, ended⟩ := Script.retry_reply replied
    have progress := (@Script.edits_sweep (fun db id => db.jobs.get? id = none)
      (ScriptMachine.clock state) _ sound.1).progress
    exact ⟨_, m, progress.mono fun _ _ _ clear => clear, found, eligible, ended⟩

/-- A command that sweeps everything loses every effectful job whose owner let it lapse. -/
theorem sweepsAll_loses (sound : backend.Sound state) {command : Command}
    (sweeps : backend.SweepsAll state command) {id : TaskId} {m : JobRecord}
    (found : backend.record state id = some m) (effectful : m.effectful = true)
    (owned : m.state.owned = true) (lapsed : m.lapsed (backend.clock state)) :
    Ledger.Lost id m.sequence (backend.ledger (backend.step state (.call command))) := by
  cases backend with
  | memory => exact MemoryQueueStore.exec_loses sound sweeps found effectful owned lapsed
  | redis =>
    exact Script.exec_loses sound.1 sound.2 sweeps.1 sweeps.2 found effectful owned lapsed

end Backend

end BobbyBotique.Queue
