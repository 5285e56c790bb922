import BobbyBotique.Queue.Backend
import BobbyBotique.Queue.ScriptStaff

/-!
# The life cycle of the queue

What holds of the jobs in every state of either store, and of every step from
there.  The local store counts the held records when it hands out a job.  The
script reads a counter and a permit, which stand for the held records as long
as task ids and owner tokens are not used twice.
-/

namespace BobbyBotique.Queue

namespace Backend

/--
The step uses no name twice: no admission takes the task id of a job that is
to be run, paid for or retried, and no claim the token of a held job.  The local
store does not depend on it.
-/
def Distinct : (backend : Backend) → backend.State → Label → Prop
  | .memory, _, _ => True
  | .redis, _, .advance _ => True
  | .redis, state, .call command =>
    Script.Spares (ScriptMachine.clock state) (ScriptMachine.db state) command ∧
      Script.NewToken (ScriptMachine.db state) command

/-- The store keeps count of the workers and of the image work. -/
def Staffed : (backend : Backend) → backend.State → Prop
  | .memory, state => (MemoryMachine.ledger state).WellFormed ∧ (MemoryMachine.ledger state).Staffed
  | .redis, state => Script.Staffed (ScriptMachine.clock state) (ScriptMachine.db state)

variable {backend : Backend} {state : backend.State}

theorem Staffed.ledger (staffed : backend.Staffed state) : (backend.ledger state).Staffed := by
  cases backend with
  | memory => exact staffed.2
  | redis => exact staffed.staffed

theorem staffed_initial (backend : Backend) (start : Time) :
    backend.Staffed (backend.initial start) := by
  have empty : (⟨Dict.empty, 0⟩ : Ledger).Staffed := ⟨fun _ => Nat.zero_le _, Nat.zero_le _⟩
  cases backend with
  | memory => exact ⟨MemoryMachine.initial_wellFormed start, empty⟩
  | redis =>
    have none : ∀ {id : TaskId} {m : ScriptJob},
        (ScriptMachine.initial start).db.jobs.get? id ≠ some m := nofun
    have good := ScriptMachine.initial_wellFormed start
    have orderly : Script.Orderly start (ScriptMachine.initial start).db := by
      refine ⟨fun id => ⟨?_, ?_, ?_⟩, ?_⟩
      · exact fun _ => nofun
      · exact nofun
      · exact fun m found => absurd found none
      · exact fun id other m r found => absurd found none
    exact ⟨⟨good, orderly, fun _ => rfl⟩, fun id m found => absurd found none, empty⟩

theorem Staffed.step (staffed : backend.Staffed state) {label : Label}
    (distinct : backend.Distinct state label) : backend.Staffed (backend.step state label) := by
  cases backend with
  | memory =>
    refine ⟨(MemoryMachine.ledger_step state staffed.1 label).wellFormed staffed.1, ?_⟩
    cases label with
    | advance elapsed => exact staffed.2
    | call command => exact MemoryQueueStore.exec_staffed staffed.1 staffed.2 command
  | redis =>
    cases label with
    | advance elapsed =>
      have passed : ScriptMachine.clock state ≤ ScriptMachine.clock state + elapsed :=
        Int.le_add_of_nonneg_right (Int.natCast_nonneg _)
      exact Script.Staffed.later staffed passed
    | call command => exact Script.Staffed.exec staffed command distinct.1 distinct.2

/-- A submission to the lane of deferred jobs. -/
def submission (key : String) (imageWork : Bool) : Label :=
  .call (.admitJob
    { taskId := .submission 7 key, kind := "mail", lane := "deferred", userId := 7,
      payload := .text "x", idempotencyKey := .given key, imageWork := imageWork }
    defaultQueuePolicy)

/-- A job that a worker has started. -/
def startedJob : List Label := [submission "a" true, .call (.claim .deferred "w")]

/-- The token of the first claim is new, and so is the id of the first admission. -/
theorem distinct_startedJob :
    Run.Along (step .redis) (Distinct .redis) (initial .redis 0) startedJob := by
  have empty : (Script.sweep (ScriptMachine.initial 0).db 0).jobs.items = [] := by decide +kernel
  have free : ((ScriptMachine.initial 0).step (submission "a" true)).db.jobs.items.all
      (fun item => !item.2.state.owned) = true := by decide +kernel
  refine ⟨⟨fun _ id _ m found => ?_, trivial⟩, ⟨fun _ id accepts => ?_, ?_⟩, trivial⟩
  · have listed := (Dict.mem_items_iff _ id m).mpr found
    have none : (id, m) ∈ ([] : List (TaskId × ScriptJob)) := empty ▸ listed
    cases none
  · cases accepts
  · intro id m found owned
    have idle := List.all_eq_true.mp free _ ((Dict.mem_items_iff _ id m).mpr found)
    rw [owned] at idle
    cases idle

/-- An ended job stays as it ended until it is erased or its metadata expires. -/
def Absorbing (backend : Backend) : Prop :=
  ∀ labels label id m next, backend.record (backend.after 0 labels) id = some m →
    m.state.active = false → m.outlived (backend.clock (backend.after 0 labels)) = false →
    (∀ userId members, label ≠ .call (.eraseUser userId members)) →
    backend.record (backend.after 0 (labels ++ [label])) id = some next → next.state = m.state

/-- A submission that expires unclaimed. -/
def unclaimed : List Label := [submission "a" true, .advance 86400000, .call .sweep]

/-- One token holds two jobs, and the finish of the second gives the permit of the first back. -/
def sharedToken : List Label :=
  [submission "a" true, submission "b" false, submission "c" true,
    .call (.claim .deferred "w"), .call (.claim .deferred "w"),
    .call (.finish (.submission 7 "b") "w" 2 { outcome := .succeeded } 0),
    .call (.claim .deferred "v")]

theorem not_absorbing (backend : Backend)
    (ended : (backend.record (backend.after 0 unclaimed) (.submission 7 "a")).map
      (fun m => (m.state, m.outlived (backend.clock (backend.after 0 unclaimed)))) =
        some (.expired, false))
    (again : (backend.record (backend.after 0 (unclaimed ++ [submission "a" true]))
      (.submission 7 "a")).map (fun m => m.state) = some .queued) : ¬ backend.Absorbing := by
  intro absorbing
  obtain ⟨m, found, shown⟩ := Option.map_eq_some_iff.mp ended
  obtain ⟨next, later, queued⟩ := Option.map_eq_some_iff.mp again
  obtain ⟨state, kept⟩ := Prod.mk.inj shown
  have same := absorbing unclaimed (submission "a" true) _ m next found
    (by rw [state]; rfl) kept (fun _ _ => nofun) later
  rw [state, queued] at same
  cases same

end Backend

end BobbyBotique.Queue
