import BobbyBotique.Queue.Fencing

/-!
# Refused admissions

A refused admission of the local store sweeps.  In a lane that has a record it
does nothing else, so no later command can tell it from a sweep.
-/

namespace BobbyBotique.Queue

namespace MemoryQueueStore

variable {s : MemoryQueueStore} {now : Time} {job : JobEnvelope} {policy : QueuePolicy}

/-- The lane of the submission has a record, or its identity or its keys decide first. -/
def LaneSettled (s : MemoryQueueStore) (now : Time) (job : JobEnvelope) : Prop :=
  ∀ lane, Lane.ofName? job.lane = some lane →
    s.lanes.contains lane = true ∨ s.remembered now job.identity ≠ none ∨
      s.conflictOwner lane job.userId job.conflictKeys.keys ≠ none

theorem opened_of_contains {lane : Lane} (known : s.lanes.contains lane = true) :
    s.opened lane policy = s := by
  obtain ⟨record, found⟩ := Option.isSome_iff_exists.mp known
  exact opened_of_get? found policy

/-- In a settled lane a refusal leaves the store as it is. -/
theorem admitJob_refused (settled : s.LaneSettled now job)
    (refused : (s.admitJob now job policy).1.state = .rejected) :
    (s.admitJob now job policy).2 = s := by
  have spec := s.admit_spec now job policy 0
  generalize (s.admitJob now job policy 0).1 = reply at spec refused
  generalize (s.admitJob now job policy 0).2 = t at spec
  cases spec with
  | unknownLane => rfl
  | repeated => cases refused
  | differs | full => rfl
  | joins | accepts => cases refused
  | refuses named new free =>
    rcases settled _ named with known | found | held
    · exact opened_of_contains known
    · exact absurd new found
    · exact absurd free held

end MemoryQueueStore

namespace MemoryMachine

variable {machine : MemoryMachine} {job : JobEnvelope} {policy : QueuePolicy}

/--
After a refused admission to a settled lane every sequence of commands returns
what it returns after a sweep.
-/
theorem refused_like_sweep (machine : MemoryMachine) (job : JobEnvelope) (policy : QueuePolicy)
    (settled : (machine.store.sweep machine.clock).LaneSettled machine.clock job)
    (refused : ∃ id reason,
      machine.reply (.admitJob job policy) = .admission ⟨.rejected, id, reason⟩)
    (labels : List Label) (command : Command) :
    (Run.run step (machine.step (.call (.admitJob job policy))) labels).reply command =
      (Run.run step (machine.step (.call .sweep)) labels).reply command := by
  obtain ⟨id, reason, replied⟩ := refused
  have state : ((machine.store.sweep machine.clock).admitJob machine.clock job policy).1.state =
      .rejected := by
    have admission : ((machine.store.sweep machine.clock).admitJob machine.clock job policy).1 =
        ⟨.rejected, id, reason⟩ := Reply.admission.inj replied
    rw [admission]
  have same : machine.step (.call (.admitJob job policy)) = machine.step (.call .sweep) :=
    congrArg (MemoryMachine.mk machine.clock)
      (MemoryQueueStore.admitJob_refused settled state)
  rw [same]

/-- A submission to the deferred lane. -/
def deferredJob (key : String) : JobEnvelope where
  taskId := .submission 7 key
  kind := "mail"
  lane := "deferred"
  userId := 7
  payload := .text "xx"
  idempotencyKey := .given key

/-- A policy that takes payloads of one byte. -/
def oneByte : QueuePolicy where
  maxPayloadBytes := 1

/-- The reply rejects a job. -/
def rejects : Reply → Bool
  | .admission result => decide (result.state = .rejected)
  | _ => false

/-- A lane with a job refuses a payload that is too large as a sweep would. -/
theorem refused_like_sweep_deferred :
    ((initial 0).step (.call (.admitJob (deferredJob "a") defaultQueuePolicy)) |>.step
        (.call (.admitJob (deferredJob "b") oneByte))).reply (.readJob (.submission 7 "a")) =
      ((initial 0).step (.call (.admitJob (deferredJob "a") defaultQueuePolicy)) |>.step
        (.call .sweep)).reply (.readJob (.submission 7 "a")) := by
  refine refused_like_sweep ((initial 0).step
    (.call (.admitJob (deferredJob "a") defaultQueuePolicy))) (deferredJob "b") oneByte ?_ ?_ []
    (.readJob (.submission 7 "a"))
  · intro lane named
    have same : lane = .deferred := by
      have known : Lane.ofName? (deferredJob "b").lane = some .deferred := by decide +kernel
      rw [known] at named
      cases named
      rfl
    rw [same]
    exact .inl (by decide +kernel)
  · have rejected : rejects (((initial 0).step
        (.call (.admitJob (deferredJob "a") defaultQueuePolicy))).reply
          (.admitJob (deferredJob "b") oneByte)) = true := by
      decide +kernel
    unfold rejects at rejected
    split at rejected
    · next result replied =>
        obtain ⟨state, id, reason⟩ := result
        have same := of_decide_eq_true rejected
        dsimp only at same
        subst same
        exact ⟨id, reason, replied⟩
    · cases rejected

/-- A refused admission is never seen by later commands. -/
def RefusalUnseen : Prop :=
  ∀ (machine : MemoryMachine) (job : JobEnvelope) (policy : QueuePolicy) (labels : List Label)
    (command : Command),
    (∃ id reason, machine.reply (.admitJob job policy) = .admission ⟨.rejected, id, reason⟩) →
    (Run.run step (machine.step (.call (.admitJob job policy))) labels).reply command =
      (Run.run step machine labels).reply command

/-- The reply accepts a job. -/
def accepts : Reply → Bool
  | .admission result => decide (result.state = .accepted)
  | _ => false

/-- The reply is a job that waits in its lane. -/
def waits : Reply → Bool
  | .job (some snapshot) => decide (snapshot.state = .queued)
  | _ => false

/-- A job that nobody has claimed before its deadline. -/
def overdue : MemoryMachine :=
  Run.run step (initial 0)
    [.call (.admitJob (deferredJob "a") defaultQueuePolicy), .advance 1000000]

/--
The sweep of a refused admission ends a job that is overdue, and a read that
does not sweep sees it.  And a lane whose first admission is refused keeps the
limits of that admission.
-/
theorem refusal_seen :
    ¬ RefusalUnseen ∧
      accepts ((initial 0).reply (.admitJob (deferredJob "b") defaultQueuePolicy)) = true ∧
      accepts ((initial 0).reply (.admitJob (deferredJob "a") oneByte)) = false ∧
      accepts (((initial 0).step (.call (.admitJob (deferredJob "a") oneByte))).reply
        (.admitJob (deferredJob "b") defaultQueuePolicy)) = false := by
  refine ⟨fun unseen => ?_, by decide +kernel, by decide +kernel, by decide +kernel⟩
  have same := congrArg waits (unseen overdue { deferredJob "b" with lane := "nowhere" }
    defaultQueuePolicy [] (.readJobByOperation 7 "a") ⟨none, some "unknown_lane", rfl⟩)
  revert same
  decide +kernel

end MemoryMachine

end BobbyBotique.Queue
