import BobbyBotique.Queue.Backend

/-!
# Uncertain effects

An effectful job that has been started may have had its effect, so no store
starts it again on its own.  Only the owner's own report of a retryable failure
puts it back; an owner that is lost leaves an unknown delivery, for good.
-/

namespace BobbyBotique.Queue

/-- The step is a retryable failure that the current owner of a running job reports. -/
def ReportsRetry (label : Label) (m : JobRecord) : Prop :=
  ∃ command, label = .call command ∧ OwnersRetry (.call command) m

/-- The step is a finish by the current owner of a job. -/
def ReportsFinish (label : Label) (m : JobRecord) : Prop :=
  ∃ command, label = .call command ∧ OwnersFinish (.call command) m

/-- What one step may do to an effectful job. -/
structure EffectKept (label : Label) (m next : JobRecord) : Prop where
  returns : m.state.waiting = false → next.state.waiting = true → ReportsRetry label m
  eligible : m.retryEligible = false → next.retryEligible = true → ReportsRetry label m
  givenUp : m.state.owned = true → next.state = m.state ∨ next.state = .unknownDelivery ∨
    next.state = .cancelRequested ∨ ReportsFinish label m

theorem EffectKept.refl (label : Label) (m : JobRecord) : EffectKept label m m where
  returns away back := absurd (away.symm.trans back) Bool.false_ne_true
  eligible before after := absurd (before.symm.trans after) Bool.false_ne_true
  givenUp _ := .inl rfl

section Command

variable {now : Time} {command : Command} {m swept next : JobRecord}

/-- The owner that a command finds after its sweep held the job before it. -/
theorem reportsRetry_of_swept (sweep : Moves now .sweep m swept)
    (retry : OwnersRetry (.call command) swept) : ReportsRetry (.call command) m := by
  obtain ⟨ownerToken, result, delay, called, outcome, running, token⟩ := retry
  obtain ⟨sameState, sameToken, sameRevision⟩ :=
    sweep.held (fun _ _ claims => by cases claims) (fun _ _ _ _ cancels => by cases cancels)
      (by rw [running]; rfl)
  rw [sweep.sameJob.taskId, sameRevision] at called
  exact ⟨command, rfl, ownerToken, result, delay, called, outcome, sameState ▸ running,
    sameToken ▸ token⟩

theorem reportsFinish_of_swept (sweep : Moves now .sweep m swept)
    (owned : swept.state.owned = true) (finish : OwnersFinish (.call command) swept) :
    ReportsFinish (.call command) m := by
  obtain ⟨ownerToken, result, delay, called, token⟩ := finish
  obtain ⟨_, sameToken, sameRevision⟩ :=
    sweep.held (fun _ _ claims => by cases claims) (fun _ _ _ _ cancels => by cases cancels) owned
  rw [sweep.sameJob.taskId, sameRevision] at called
  exact ⟨command, rfl, ownerToken, result, delay, called, sameToken ▸ token⟩

/-- A sweep never reports anything. -/
theorem not_ownersRetry_sweep (retry : OwnersRetry .sweep m) : False := by
  obtain ⟨_, _, _, called, _⟩ := retry
  cases called

theorem effectKept_of_moves (good : m.WellFormed) (effectful : m.effectful = true)
    (sweep : Moves now .sweep m swept) (own : Moves now (.call command) swept next) :
    EffectKept (.call command) m next := by
  have effect : swept.effectful = true := sweep.sameJob.effectful.trans effectful
  refine ⟨fun away back => ?_, fun before after => ?_, fun owned => ?_⟩
  · cases waits : swept.state.waiting with
    | true => exact (not_ownersRetry_sweep (sweep.returns effectful away waits)).elim
    | false => exact reportsRetry_of_swept sweep (own.returns effect waits back)
  · cases eligible : swept.retryEligible with
    | true =>
      exact (not_ownersRetry_sweep (sweep.becomesEligible good effectful before eligible)).elim
    | false =>
      exact reportsRetry_of_swept sweep
        (own.becomesEligible (sweep.wellFormed good) effect eligible after)
  · rcases sweep.sweepOwned effectful owned with rfl | lost
    · rcases own.givenUp effect owned with same | lost | requested | finish
      · exact .inl same
      · exact .inr (.inl lost)
      · exact .inr (.inr (.inl requested))
      · exact .inr (.inr (.inr (reportsFinish_of_swept sweep owned finish)))
    · exact .inr (.inl ((own.absorbs (by rw [lost]; rfl)).trans lost))

end Command

namespace Backend

variable {backend : Backend} {state : backend.State}

theorem effectKept_step (sound : backend.Sound state) (label : Label) {id : TaskId}
    {m next : JobRecord} (found : backend.record state id = some m)
    (later : backend.record (backend.step state label) id = some next)
    (same : next.sequence = m.sequence) (effectful : m.effectful = true) :
    EffectKept label m next := by
  have bound := sound.wellFormed.counted id m found
  obtain ⟨old, earlier, unchanged | ⟨command, swept, rfl, sweep, own⟩⟩ :=
    (ledger_step sound label).origin later (same ▸ bound)
  · have same' : old = m := Option.some.inj (earlier.symm.trans found)
    subst same'
    subst unchanged
    exact EffectKept.refl label old
  · have same' : old = m := Option.some.inj (earlier.symm.trans found)
    subst same'
    exact effectKept_of_moves (sound.wellFormed.record id old found) effectful sweep own

/-- An unknown delivery is not started again: nothing claims it and nothing retries it. -/
structure NeverAgain (backend : Backend) (state : backend.State) (id : TaskId)
    (sequence : Nat) : Prop where
  stays : ∀ next, backend.record state id = some next → next.sequence = sequence →
    next.state = .unknownDelivery ∧ next.retryEligible = false
  unclaimed : ∀ lane ownerToken claim next,
    backend.reply state (.claim lane ownerToken) = .claimed (some claim) →
    claim.snapshot.taskId = id →
    backend.record (backend.step state (.call (.claim lane ownerToken))) id = some next →
    next.sequence ≠ sequence
  unretried : ∀ revision actor operationId epoch m, backend.record state id = some m →
    m.sequence = sequence →
    ¬ (backend.reply state (.retryJob id revision actor operationId epoch)).Accepts

theorem neverAgain_of_lost (sound : backend.Sound state) {id : TaskId} {sequence : Nat}
    (bound : sequence ≤ (backend.ledger state).sequence)
    (lost : Ledger.Lost id sequence (backend.ledger state)) :
    NeverAgain backend state id sequence := by
  have ineligible : ∀ m : JobRecord, m.WellFormed → m.state = .unknownDelivery →
      m.retryEligible = false := by
    intro m good lost
    cases eligible : m.retryEligible with
    | false => rfl
    | true =>
      rcases (good.retry eligible).1 with ended | ended <;> rw [ended] at lost <;> cases lost
  refine ⟨fun next found same => ?_, ?_, ?_⟩
  · have state' := lost next found same
    exact ⟨state', ineligible next (sound.wellFormed.record id next found) state'⟩
  · intro lane ownerToken claim next replied named later same
    obtain ⟨m, found, running, _⟩ := claim_reply sound replied
    rw [named, later] at found
    cases found
    have state' := (ledger_step sound (.call (.claim lane ownerToken))).persists
      (fun m => m.state = .unknownDelivery)
      (fun _ _ _ move lost => (move.absorbs (by rw [lost]; rfl)).trans lost) bound lost later same
    rw [running] at state'
    cases state'
  · intro revision actor operationId epoch m found same accepts
    obtain ⟨swept, r, sweep, stored, eligible, _⟩ := retry_reply sound accepts
    obtain ⟨old, earlier, moves⟩ := sweep.sweep_origin stored
    have same' : old = m := Option.some.inj (earlier.symm.trans found)
    subst same'
    have state' := (moves.absorbs (by rw [lost old found same]; rfl)).trans (lost old found same)
    have good := moves.wellFormed (sound.wellFormed.record id old found)
    rw [ineligible r good state'] at eligible
    cases eligible

/--
In every reachable state of either store, an effectful job that is not waiting
goes back to its lane, or becomes eligible for a retry, only by the retryable
failure that its current owner reports while it is running; a sweep that meets
it unpaid, overdue or without its owner ends it as an unknown delivery; and an
unknown delivery is never claimed or retried, whatever follows.
-/
theorem uncertain_effect_at_most_once (backend : Backend) (start : Time) (labels : List Label) :
    (∀ label id m next, backend.record (backend.after start labels) id = some m →
      backend.record (backend.step (backend.after start labels) label) id = some next →
      next.sequence = m.sequence → m.effectful = true → EffectKept label m next) ∧
    (∀ command id m next, backend.SweepsAll (backend.after start labels) command →
      backend.record (backend.after start labels) id = some m → m.effectful = true →
      m.state.owned = true → m.lapsed (backend.clock (backend.after start labels)) →
      backend.record (backend.step (backend.after start labels) (.call command)) id = some next →
      next.sequence = m.sequence → next.state = .unknownDelivery) ∧
    (∀ id m, backend.record (backend.after start labels) id = some m →
      m.state = .unknownDelivery → ∀ further,
      NeverAgain backend (Run.run backend.step (backend.after start labels) further) id
        m.sequence) := by
  have sound := sound_after backend start labels
  refine ⟨fun label id m next found later same effectful =>
    effectKept_step sound label found later same effectful, ?_, ?_⟩
  · intro command id m next sweeps found effectful owned lapsed later same
    exact sweepsAll_loses sound sweeps found effectful owned lapsed next later same
  · intro id m found lost further
    have bound := sound.wellFormed.counted id m found
    refine neverAgain_of_lost (sound_run sound further) (bound.trans (counted_run sound further)) ?_
    intro next later same
    have initial : ∀ r, backend.record (backend.after start labels) id = some r →
        r.sequence = m.sequence → r.state = .unknownDelivery := by
      intro r stored _
      rw [Option.some.inj (stored.symm.trans found)]
      exact lost
    have closed : ∀ now cause (old new : JobRecord), Move now cause old new →
        old.state = .unknownDelivery → new.state = .unknownDelivery :=
      fun _ _ _ _ move lost => (move.absorbs (by rw [lost]; rfl)).trans lost
    exact persists_run (fun m => m.state = .unknownDelivery) closed sound bound initial further
      later same

/-- An effectful submission, its claim, and an owner that is never heard of again. -/
def lostOwner : List Label :=
  [.call (.admitJob
      { taskId := .submission 7 "a", kind := "mail", lane := "deferred", userId := 7,
        payload := .text "x", idempotencyKey := .given "a" } defaultQueuePolicy),
    .call (.claim .deferred "w"), .advance 60000]

/-- After that run the sweep leaves an unknown delivery, which no later step revives. -/
theorem uncertain_effect_at_most_once_lostOwner :
    (∃ next, Backend.redis.record (Backend.redis.step (Backend.redis.after 0 lostOwner)
        (.call .sweep)) (.submission 7 "a") = some next ∧ next.state = .unknownDelivery) ∧
      NeverAgain .redis (Backend.redis.after 0 (lostOwner ++ [Label.call .sweep]))
        (.submission 7 "a") 1 := by
  have held : (Backend.redis.record (Backend.redis.after 0 lostOwner) (.submission 7 "a")).any
      (fun m => m.effectful && m.state.owned && m.sequence == 1 &&
        m.leaseLost (Backend.redis.clock (Backend.redis.after 0 lostOwner))) = true := by
    decide +kernel
  have ended : (Backend.redis.record (Backend.redis.step (Backend.redis.after 0 lostOwner)
      (.call .sweep)) (.submission 7 "a")).any (fun next => next.sequence == 1) = true := by
    decide +kernel
  obtain ⟨m, found, facts⟩ := (Option.any_eq_true _ _).mp held
  obtain ⟨next, later, counted⟩ := (Option.any_eq_true _ _).mp ended
  simp only [Bool.and_eq_true, beq_iff_eq] at facts counted
  obtain ⟨⟨⟨effectful, owned⟩, sequence⟩, lost⟩ := facts
  have fits : Backend.redis.SweepsAll (Backend.redis.after 0 lostOwner) .sweep :=
    ⟨by rfl, ⟨by decide +kernel, by decide +kernel, by decide +kernel⟩⟩
  have unknown := (uncertain_effect_at_most_once .redis 0 lostOwner).2.1 .sweep _ m next fits found
    effectful owned (.inr (.inr lost)) later (counted.trans sequence.symm)
  refine ⟨⟨next, later, unknown⟩, ?_⟩
  have later' : Backend.redis.record (Backend.redis.after 0 (lostOwner ++ [Label.call .sweep]))
      (.submission 7 "a") = some next := by
    rw [after_append]
    exact later
  have again := (uncertain_effect_at_most_once .redis 0 (lostOwner ++ [Label.call .sweep])).2.2
    (.submission 7 "a") next later' unknown []
  rw [counted] at again
  exact again

end Backend

end BobbyBotique.Queue
