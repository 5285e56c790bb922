import BobbyBotique.Queue.MemoryEdits

/-!
# The commands of the process-local store

Every command of `MemoryQueueStore` is a sweep, where the command sweeps,
followed by elementary changes of its own.  Each section proves it for one
group of commands; the last one assembles them for a run of the store.
-/

namespace BobbyBotique.Queue

namespace MemoryQueueStore

section Phases

variable {fresh : Prop} {now : Time} {cause : Cause} {s t : MemoryQueueStore}

/-! ## The sweep -/

theorem edits_sweepPayload (good : s.ledger.WellFormed) {m : MemoryJob}
    (found : s.jobs.get? m.taskId = some m) :
    Edits fresh now .sweep s (s.sweepPayload now m) := by
  unfold sweepPayload
  split
  · next active =>
      have kept : m.dropRetry = m.toJobRecord :=
        (good.record _ _ (ledger_of_get? found)).dropRetry_eq active
      have dropped : Edit fresh now .sweep s (s.dropPayload m) :=
        .drops m.toJobRecord found (by rw [kept]; exact Moves.refl _) rfl
      refine (Edits.single dropped).trans (Edits.single ?_)
      exact .ends (m := { m with toJobRecord := m.dropRetry })
        (s.jobs.get?_set_self m.taskId _) (Moves.refl _) _ (.overdue active)
  · next inactive =>
      exact Edits.single (.drops m.toJobRecord found
        (Moves.single (.payloadDropped (Bool.eq_false_iff.mpr inactive))) rfl)

theorem edits_sweepLease {m : MemoryJob} (found : s.jobs.get? m.taskId = some m)
    (owned : m.state.owned = true) : Edits fresh now .sweep s (s.sweepLease now m) := by
  unfold sweepLease
  split
  · next effectful =>
      exact Edits.single (.ends found (Moves.refl _) _ (.lostEffect owned effectful))
  · next harmless =>
      have safe := Bool.eq_false_iff.mpr harmless
      split
      · next requested =>
          exact Edits.single (.ends found (Moves.refl _) _ (.lostCancelled requested safe))
      · next unrequested =>
          have running := JobState.running_of_owned owned unrequested
          split
          · next spent =>
              exact Edits.single (.ends found (Moves.refl _) _ (.lostExhausted running safe spent))
          · next left =>
              split
              · exact Edits.single (.ends found (Moves.refl _) _ (.lostLate running safe))
              · exact Edits.single (.rewrites found
                  (Moves.single (.requeueLost running safe (Nat.lt_of_not_ge left)))
                  (by rw [running]; rfl))

theorem edits_sweepJob (good : s.ledger.WellFormed) (id : TaskId) :
    Edits fresh now .sweep s (sweepJob now s id) := by
  unfold sweepJob
  split
  · exact Edits.refl _
  · next m found =>
      have same := named good found
      subst same
      split
      · next outlived => exact Edits.single (.removes rfl found outlived)
      · split
        · exact edits_sweepPayload good found
        · split
          · next overdue =>
              exact Edits.single (.ends found (Moves.refl _) _ (.overdue overdue.1))
          · split
            · next lost => exact edits_sweepLease found lost.1
            · split
              · next due =>
                  exact Edits.single (.rewrites found (Moves.single (.promote due.1))
                    (by rw [due.1]; rfl))
              · exact Edits.refl _

theorem edits_sweep (good : s.ledger.WellFormed) : Edits fresh now .sweep s (s.sweep now) := by
  have through : ∀ (ids : List TaskId) (u : MemoryQueueStore), u.ledger.WellFormed →
      Edits fresh now .sweep u (ids.foldl (sweepJob now) u) := by
    intro ids
    induction ids with
    | nil => exact fun u _ => Edits.refl u
    | cons id rest ih =>
      intro u good
      have first : Edits fresh now .sweep u (sweepJob now u id) := edits_sweepJob good id
      exact first.trans (ih _ (first.wellFormed good))
  exact (Edits.single (.forgets s)).trans (through s.jobs.keys (s.forget now) good)

/-- The sweep ends every effectful job that its owner has let lapse. -/
theorem sweep_loses (good : s.ledger.WellFormed) {id : TaskId} {m : JobRecord}
    (found : s.ledger.records.get? id = some m) (effectful : m.effectful = true)
    (owned : m.state.owned = true) (lapsed : m.lapsed now) :
    Ledger.Lost id m.sequence (s.sweep now).ledger := by
  have active := JobState.active_of_owned owned
  have unexpired := (good.record id m found).unexpired active
  have uncertain : m.uncertain = true := by rw [JobRecord.uncertain, owned, effectful]; rfl
  refine Ledger.foldl_loses True now ledger (fun state => state.ledger.WellFormed) (sweepJob now)
    (fun state each good => ?_) effectful owned id (fun state r good before later => ?_)
    s.jobs.keys ?_ (s.forget now) good (good.counted id m found) ?_
  · have edits : Edits True now .sweep state (sweepJob now state each) := edits_sweepJob good each
    exact ⟨edits.wellFormed good, edits.progress good⟩
  · obtain ⟨job, stored, rfl⟩ := get?_of_ledger before
    obtain ⟨next, stored', rfl⟩ := get?_of_ledger later
    have same := named good stored
    subst same
    have ends : ∀ (state' : MemoryQueueStore) (held : MemoryJob) (reason : Option String),
        held.taskId = job.taskId →
        (state'.terminal now held .unknownDelivery reason).jobs.get? job.taskId = some next →
        next.state = .unknownDelivery := by
      intro state' held reason same stored
      rw [terminal_jobs, same, Dict.get?_set_self] at stored
      cases stored
      rfl
    unfold sweepJob at stored'
    rw [stored] at stored'
    dsimp only at stored'
    rw [unexpired, Option.elim_none, if_neg Bool.false_ne_true] at stored'
    split at stored'
    · unfold sweepPayload at stored'
      rw [if_pos active, if_pos uncertain] at stored'
      exact ends _ { job with toJobRecord := job.dropRetry } _ rfl stored'
    · next paid =>
        split at stored'
        · exact ends _ _ _ rfl stored'
        · next timely =>
            have lost : job.leaseLost now = true := by
              rcases lapsed with unpaid | overdue | lost
              · exact absurd unpaid paid
              · exact absurd ⟨active, overdue⟩ timely
              · exact lost
            rw [if_pos ⟨owned, lost⟩, sweepLease, if_pos effectful] at stored'
            exact ends _ _ _ rfl stored'
  · obtain ⟨job, stored, _⟩ := get?_of_ledger found
    exact Dict.mem_keys_of_get? stored
  · intro r stored _
    exact .inl (Option.some.inj (stored.symm.trans found))

/-! ## Admission -/

theorem openLane_eq (s : MemoryQueueStore) (lane : Lane) (policy : QueuePolicy) :
    s.openLane lane policy = (s.laneRecord lane policy, s.opened lane policy) := by
  unfold openLane laneRecord opened Dict.getD Dict.contains
  cases s.lanes.get? lane <;> rfl

/-- A lane that has a record is opened without a change. -/
theorem opened_of_get? {lane : Lane} {record : LaneRecord} (found : s.lanes.get? lane = some record)
    (policy : QueuePolicy) : s.opened lane policy = s := by
  unfold opened Dict.contains
  rw [found]
  rfl

/-- What an admission can do, with the tests that lead there. -/
inductive Admits (s : MemoryQueueStore) (now : Time) (job : JobEnvelope) (policy : QueuePolicy)
    (credit : Nat) : QueueAdmission → MemoryQueueStore → Prop where
  | unknownLane (unknown : Lane.ofName? job.lane = none) :
      Admits s now job policy credit (rejected "unknown_lane") s
  | repeated {lane : Lane} {previous : Alias} (named : Lane.ofName? job.lane = some lane)
      (known : s.remembered now job.identity = some previous)
      (same : previous.fingerprint = job.fingerprint) :
      Admits s now job policy credit ⟨.existing, some previous.taskId, none⟩ s
  | differs {lane : Lane} {previous : Alias} (named : Lane.ofName? job.lane = some lane)
      (known : s.remembered now job.identity = some previous)
      (other : previous.fingerprint ≠ job.fingerprint) :
      Admits s now job policy credit
        (rejected "idempotency_conflict" (some previous.taskId)) s
  | full {lane : Lane} {owner : MemoryJob} (named : Lane.ofName? job.lane = some lane)
      (new : s.remembered now job.identity = none)
      (held : s.conflictOwner lane job.userId job.conflictKeys.keys = some owner)
      (aliases : 256 ≤ owner.identityAliases.length) :
      Admits s now job policy credit (rejected "idempotency_capacity") s
  | joins {lane : Lane} {owner : MemoryJob} (named : Lane.ofName? job.lane = some lane)
      (new : s.remembered now job.identity = none)
      (held : s.conflictOwner lane job.userId job.conflictKeys.keys = some owner)
      (aliases : owner.identityAliases.length < 256) :
      Admits s now job policy credit
        ⟨.existing, some owner.taskId, some "conflict_existing"⟩ (s.coalesce now job owner)
  | refuses {lane : Lane} {reason : String} (named : Lane.ofName? job.lane = some lane)
      (new : s.remembered now job.identity = none)
      (free : s.conflictOwner lane job.userId job.conflictKeys.keys = none)
      (limit : s.refusal lane policy job credit = some reason) :
      Admits s now job policy credit (rejected reason)
        (s.opened lane (boundedPolicy lane policy))
  | accepts {lane : Lane} (named : Lane.ofName? job.lane = some lane)
      (new : s.remembered now job.identity = none)
      (free : s.conflictOwner lane job.userId job.conflictKeys.keys = none)
      (room : s.refusal lane policy job credit = none) :
      Admits s now job policy credit ⟨.accepted, some job.taskId, none⟩
        ((s.opened lane (boundedPolicy lane policy)).accept now job lane (s.limits lane policy))

theorem admit_spec (s : MemoryQueueStore) (now : Time) (job : JobEnvelope)
    (policy : QueuePolicy) (credit : Nat) :
    s.Admits now job policy credit (s.admitJob now job policy credit).1
      (s.admitJob now job policy credit).2 := by
  unfold admitJob
  split
  · next unknown => exact .unknownLane unknown
  · next lane named =>
      dsimp only
      split
      · next previous known =>
          split
          · next same => exact .repeated named known same
          · next other => exact .differs named known other
      · next new =>
          split
          · next owner held =>
              split
              · next aliases => exact .full named new held aliases
              · next aliases => exact .joins named new held (Nat.lt_of_not_ge aliases)
          · next free =>
              unfold admitNew
              rw [openLane_eq]
              dsimp only
              split
              · next reason limit => exact .refuses named new free limit
              · next room => exact .accepts named new free room

/-- An admission that passes every test takes a task id that is not in the table. -/
def Vacant (s : MemoryQueueStore) (now : Time) (job : JobEnvelope) (policy : QueuePolicy)
    (credit : Nat) : Prop :=
  ∀ lane, Lane.ofName? job.lane = some lane → s.remembered now job.identity = none →
    s.conflictOwner lane job.userId job.conflictKeys.keys = none →
    s.refusal lane policy job credit = none → s.jobs.get? job.taskId = none

theorem edits_admitJob (job : JobEnvelope) (policy : QueuePolicy)
    (vacant : fresh → s.Vacant now job policy 0) :
    Edits fresh now (.call (.admitJob job policy)) s (s.admitJob now job policy).2 := by
  have spec := s.admit_spec now job policy 0
  generalize (s.admitJob now job policy 0).1 = reply at spec
  generalize (s.admitJob now job policy 0).2 = t at spec
  cases spec with
  | unknownLane | repeated | differs | full => exact Edits.refl _
  | joins _ new held aliases => exact Edits.single (.joins new held aliases)
  | refuses => exact Edits.single (.opens _ _)
  | accepts named new free room =>
    exact Edits.single (.accepts rfl (fun promise => vacant promise _ named new free room) new
      free room)

/-! ## Claims -/

/-- The queued records that a claim ends because nothing can be started. -/
inductive Passes (now : Time) : MemoryQueueStore → MemoryQueueStore → Prop where
  | refl (s : MemoryQueueStore) : Passes now s s
  | exhausted {s t : MemoryQueueStore} {m : MemoryJob} (found : s.jobs.get? m.taskId = some m)
      (queued : m.state = .queued) (spent : m.maxAttempts ≤ m.attemptsStarted)
      (rest : Passes now (s.terminal now m .failed (some "attempts_exhausted") true) t) :
      Passes now s t
  | payloadGone {s t : MemoryQueueStore} {m : MemoryJob}
      (found : s.jobs.get? m.taskId = some m) (queued : m.state = .queued)
      (gone : s.payloads.contains m.taskId = false)
      (rest : Passes now (s.terminal now m .expired (some "payload_expired")) t) :
      Passes now s t

/-- What a claim can do: end some queued records, then start one or none. -/
inductive Claims (s : MemoryQueueStore) (now : Time) (lane : Lane) (ownerToken : String)
    (busy : Bool) : Option MemoryJob → MemoryQueueStore → Prop where
  | nothing {t : MemoryQueueStore} (passes : Passes now s t) :
      Claims s now lane ownerToken busy none t
  | starts {t : MemoryQueueStore} {m : MemoryJob} (passes : Passes now s t)
      (found : t.jobs.get? m.taskId = some m) (placed : m.lane = lane)
      (queued : m.state = .queued)
      (left : m.attemptsStarted < m.maxAttempts) (idle : m.imageWork = true → busy = false)
      (payload : t.payloads.contains m.taskId = true) :
      Claims s now lane ownerToken busy (some (started m now ownerToken))
        (t.put (started m now ownerToken))

theorem Claims.pass {s t u : MemoryQueueStore} {lane : Lane} {ownerToken : String} {busy : Bool}
    {result : Option MemoryJob} (step : ∀ v, Passes now t v → Passes now s v)
    (claims : Claims t now lane ownerToken busy result u) :
    Claims s now lane ownerToken busy result u := by
  cases claims with
  | nothing passes => exact .nothing (step _ passes)
  | starts passes found placed queued left idle payload =>
    exact .starts (step _ passes) found placed queued left idle payload

theorem claimLoop_spec (lane : Lane) (ownerToken : String) (busy : Bool) (jobs : List MemoryJob)
    (s : MemoryQueueStore) (listed : ∀ m ∈ jobs, s.jobs.get? m.taskId = some m)
    (queued : ∀ m ∈ jobs, m.lane = lane ∧ m.state = .queued)
    (distinct : jobs.Pairwise fun first second => first.taskId ≠ second.taskId) :
    Claims s now lane ownerToken busy (claimLoop now ownerToken busy s jobs).1
      (claimLoop now ownerToken busy s jobs).2 := by
  induction jobs generalizing s with
  | nil => exact .nothing (.refl s)
  | cons m rest ih =>
    obtain ⟨apart, distinct⟩ := List.pairwise_cons.mp distinct
    have found := listed m List.mem_cons_self
    obtain ⟨placed, waits⟩ := queued m List.mem_cons_self
    have queued' : ∀ other ∈ rest, other.lane = lane ∧ other.state = .queued :=
      fun other member => queued other (List.mem_cons_of_mem _ member)
    have listed' : ∀ t : MemoryQueueStore, (∀ id, id ≠ m.taskId → t.jobs.get? id = s.jobs.get? id) →
        ∀ other ∈ rest, t.jobs.get? other.taskId = some other := by
      intro t same other member
      rw [same _ (apart other member).symm]
      exact listed other (List.mem_cons_of_mem _ member)
    have others : ∀ state reason safeRetry id, id ≠ m.taskId →
        (s.terminal now m state reason safeRetry).jobs.get? id = s.jobs.get? id := by
      intro state reason safeRetry id ne
      rw [terminal_jobs, Dict.get?_set_ne _ _ ne]
    unfold claimLoop
    split
    · next spent =>
        exact (ih _ (listed' _ (others _ _ _)) queued' distinct).pass
          fun _ passes => .exhausted found waits spent passes
    · next left =>
        split
        · exact ih _ (listed' _ fun _ _ => rfl) queued' distinct
        · next idle =>
            split
            · next payload =>
                refine .starts (.refl s) found placed waits (Nat.lt_of_not_ge left) ?_ payload
                intro image
                rw [image, Bool.true_and] at idle
                exact Bool.eq_false_iff.mpr idle
            · next gone =>
                exact (ih _ (listed' _ (others _ _ _)) queued' distinct).pass
                  fun _ passes => .payloadGone found waits (Bool.eq_false_iff.mpr gone) passes

theorem edits_passes {lane : Lane} {ownerToken : String} (passes : Passes now s t) :
    Edits fresh now (.call (.claim lane ownerToken)) s t := by
  induction passes with
  | refl => exact Edits.refl _
  | exhausted found queued spent _ ih =>
    exact (Edits.single (.ends found (Moves.refl _) _ (.exhausted queued spent))).trans ih
  | payloadGone found queued _ _ ih =>
    exact (Edits.single (.ends found (Moves.refl _) _ (.payloadGone queued))).trans ih

theorem edits_claims {lane : Lane} {ownerToken : String} {busy : Bool}
    {result : Option MemoryJob} (claims : Claims s now lane ownerToken busy result t) :
    Edits fresh now (.call (.claim lane ownerToken)) s t := by
  cases claims with
  | nothing passes => exact edits_passes passes
  | @starts u m passes found _ queued left _ _ =>
    exact (edits_passes passes).trans
      (Edits.single (.rewrites found
        (Moves.single (.start (executionBudget m.toJobRecord) queued left))
        (by rw [queued]; rfl)))

/-- The queued records of a lane are what the loop of a claim goes through. -/
theorem mem_readyJobs {s : MemoryQueueStore} {lane : Lane} {m : MemoryJob} :
    m ∈ s.readyJobs lane ↔ m ∈ s.jobs.values ∧ m.lane = lane ∧ m.state = .queued := by
  rw [readyJobs, List.mem_insertionSort, List.mem_filter, decide_eq_true_eq]

/-- The loop of a claim goes through no job twice. -/
theorem readyJobs_apart (good : s.ledger.WellFormed) (lane : Lane) :
    (s.readyJobs lane).Pairwise fun first second => first.taskId ≠ second.taskId := by
  have apart := s.jobs.values_apart (fun m => m.taskId) fun _ _ found => named good found
  exact ((List.perm_insertionSort claimedBefore _).pairwise_iff
    fun {_ _} apart => apart.symm).mpr (apart.filter _)

theorem claim_spec (good : s.ledger.WellFormed) (lane : Lane) (ownerToken : String) :
    Claims s now lane ownerToken s.imageBusy (s.claim now lane ownerToken).1
      (s.claim now lane ownerToken).2 := by
  unfold claim
  split
  · exact .nothing (.refl s)
  · split
    · exact .nothing (.refl s)
    · refine claimLoop_spec lane ownerToken s.imageBusy _ s (fun m member => ?_)
        (fun m member => (mem_readyJobs.mp member).2) (readyJobs_apart good lane)
      obtain ⟨id, found⟩ := (s.jobs.mem_values_iff m).mp (mem_readyJobs.mp member).1
      exact named good found ▸ found

/-- A claim that hands out a job finds a worker of the lane free. -/
theorem claim_room {s : MemoryQueueStore} {lane : Lane} {ownerToken : String} {m : MemoryJob}
    (claimed : (s.claim now lane ownerToken).1 = some m) : s.ownedJobs lane < laneWorkers lane := by
  unfold claim at claimed
  split at claimed
  · cases claimed
  · split at claimed
    · cases claimed
    · next room => exact Nat.lt_of_not_ge room

/-! ## Owners -/

theorem owned?_eq_some {s : MemoryQueueStore} {taskId : TaskId} {ownerToken : String}
    {revision : Nat} {m : MemoryJob} :
    s.owned? taskId ownerToken revision = some m ↔
      s.jobs.get? taskId = some m ∧ m.toJobRecord.OwnedBy ownerToken revision := by
  unfold owned?
  rw [Option.filter_eq_some_iff]
  simp only [Bool.and_eq_true, decide_eq_true_eq, and_assoc]
  exact and_congr_right fun _ =>
    ⟨fun ⟨held, token, current⟩ => ⟨held, token, current⟩,
      fun ⟨held, token, current⟩ => ⟨held, token, current⟩⟩

theorem edits_heartbeat (good : s.ledger.WellFormed) (taskId : TaskId) (ownerToken : String)
    (revision : Nat) :
    Edits fresh now (.call (.heartbeat taskId ownerToken revision)) s
      (s.heartbeat now taskId ownerToken revision).2 := by
  unfold heartbeat
  split
  · exact Edits.refl _
  · next m owner =>
      obtain ⟨found, owned⟩ := owned?_eq_some.mp owner
      have same := named good found
      subst same
      exact Edits.single (.rewrites found (Moves.single (.beat owned)) rfl)

theorem edits_updateProgress (good : s.ledger.WellFormed) (taskId : TaskId)
    (ownerToken : String) (revision : Nat) (summary : Summary) :
    Edits fresh now (.call (.updateProgress taskId ownerToken revision summary)) s
      (s.updateProgress taskId ownerToken revision summary).2 := by
  unfold updateProgress
  split
  · exact Edits.refl _
  · next m owner =>
      obtain ⟨found, owned⟩ := owned?_eq_some.mp owner
      have same := named good found
      subst same
      split
      · split
        · exact Edits.refl _
        · next clean _ =>
            exact Edits.single (.rewrites found (Moves.single (.progress owned clean)) rfl)
      · exact Edits.refl _

/-- What a settlement can do: end the job, or put it back into its lane. -/
inductive Settles (s : MemoryQueueStore) (now : Time) (m : MemoryJob) (ownerToken : String)
    (revision : Nat) (result : JobResult) (delay : Time) : MemoryQueueStore → Prop where
  | ends {state : JobState} {safeRetry : Bool} (reason : Option String)
      (how : Ending (.call (.finish m.taskId ownerToken revision result delay)) m.toJobRecord
        state (s.retains m safeRetry)) :
      Settles s now m ownerToken revision result delay
        (s.terminal now m state reason safeRetry)
  | requeues (running : m.state = .running) (outcome : result.outcome = .retryableFailure)
      (left : m.attemptsStarted < m.maxAttempts)
      (timely : now + delay < m.queueDeadlineAt) :
      Settles s now m ownerToken revision result delay
        (s.put { m with toJobRecord := m.requeueRetry now delay result.reasonCode })

theorem settle_spec (s : MemoryQueueStore) (now : Time) {m : MemoryJob} {ownerToken : String}
    {revision : Nat} (owned : m.toJobRecord.OwnedBy ownerToken revision) (result : JobResult)
    (delay : Time) :
    Settles s now m ownerToken revision result delay (s.settle now m result delay) := by
  unfold settle
  split
  · next outcome => exact .ends _ (.uncertainResult owned outcome)
  · split
    · next requested => exact .ends _ (.cancelledResult owned requested)
    · next unrequested =>
        have running := JobState.running_of_owned owned.owned unrequested
        split
        · next outcome =>
            split
            · exact .ends _ (.retryExhausted owned running outcome)
            · next left =>
                split
                · exact .ends _ (.retryLate owned running outcome)
                · next timely =>
                    exact .requeues running outcome (Nat.lt_of_not_ge left) (not_le.mp timely)
        · next retryable =>
            split
            · next outcome => exact .ends _ (.succeeded owned running outcome)
            · next failing certain =>
                have outcome := JobOutcome.permanent ‹_› retryable certain
                exact .ends _ (.failed owned running outcome)

/-- A settled record is no longer held. -/
theorem Settles.released {m : MemoryJob} {ownerToken : String} {revision : Nat}
    {result : JobResult} {delay : Time}
    (settles : Settles s now m ownerToken revision result delay t) :
    ∃ next, t.jobs.get? m.taskId = some next ∧ next.taskId = m.taskId ∧
      next.state.owned = false ∧ next.finishToken = m.finishToken := by
  cases settles with
  | @ends state safeRetry reason how =>
    refine ⟨s.ended now m state reason safeRetry, ?_, rfl, ?_, rfl⟩
    · rw [terminal_jobs, Dict.get?_set_self]
    · exact JobState.owned_eq_false_of_ended how.active_ends.2
  | requeues =>
    exact ⟨_, s.jobs.get?_set_self m.taskId _, rfl,
      JobState.owned_eq_false_of_waiting (m.requeueRetry_waiting now delay result.reasonCode),
      rfl⟩

theorem markSettled_eq {m : MemoryJob} (found : s.jobs.get? m.taskId = some m)
    (ownerToken : String) :
    s.markSettled m.taskId ownerToken = s.put { m with toJobRecord := m.settledBy ownerToken } := by
  unfold markSettled put Dict.modify
  rw [found]
  rfl

theorem edits_settle {m : MemoryJob} (found : s.jobs.get? m.taskId = some m)
    (unsettled : m.finishToken = none) {ownerToken : String} {revision : Nat}
    (owned : m.toJobRecord.OwnedBy ownerToken revision) (result : JobResult) (delay : Time)
    (clean : PublicSummary) :
    Edits fresh now (.call (.finish m.taskId ownerToken revision result delay)) s
      ((s.settle now { m with toJobRecord := m.summarise clean } result delay).markSettled
        m.taskId ownerToken) := by
  have owned' := owned.summarise clean
  have settles := settle_spec s now (m := { m with toJobRecord := m.summarise clean }) owned'
    result delay
  generalize s.settle now { m with toJobRecord := m.summarise clean } result delay = t at settles
  have first : Edit fresh now (.call (.finish m.taskId ownerToken revision result delay)) s t := by
    cases settles with
    | ends reason how => exact .ends found (Moves.single (.result owned clean)) reason how
    | requeues running outcome left =>
      have moves : Moves now _ m.toJobRecord
          ((m.summarise clean).requeueRetry now delay result.reasonCode) :=
        (Moves.single (.result owned clean)).trans
          (Moves.single (.requeueRetry owned' running outcome left))
      refine @Edit.rewrites _ _ _ s m _ found moves ?_
      rw [JobState.active_eq, (m.summarise clean).requeueRetry_waiting now delay, Bool.or_true]
      exact (JobState.active_of_owned owned.owned).symm
  obtain ⟨next, stored, same, released, kept⟩ := settles.released
  have stored' : t.jobs.get? next.taskId = some next := same ▸ stored
  refine (Edits.single first).trans (Edits.single ?_)
  have named : m.taskId = next.taskId := same.symm
  rw [named, markSettled_eq stored']
  exact .rewrites stored' (Moves.single (.settled released (kept.trans unsettled))) rfl

theorem edits_finish (good : s.ledger.WellFormed) (taskId : TaskId) (ownerToken : String)
    (revision : Nat) (result : JobResult) (delay : Time) :
    Edits fresh now (.call (.finish taskId ownerToken revision result delay)) s
      (s.finish now taskId ownerToken revision result delay).2 := by
  unfold finish
  split
  · exact Edits.refl _
  · split
    · exact Edits.refl _
    · next m owner =>
        obtain ⟨found, owned⟩ := owned?_eq_some.mp owner
        have same := named good found
        subst same
        split
        · exact Edits.refl _
        · next clean _ =>
            have unsettled := (good.record _ _ (ledger_of_get? found)).unsettled owned.owned
            exact edits_settle found unsettled owned result delay clean

/-! ## Operator commands -/

/-- A command that is not refused for its operation is new or remembered. -/
theorem command_eq_none {key : OperationKey} {body : CommandBody}
    (unused : s.command key body = .ok none) : s.operations.get? key = none := by
  unfold command at unused
  split at unused
  · assumption
  · split at unused <;> cases unused

/-- A new operation on a job is remembered. -/
theorem edits_remember {command : Command} {key : OperationKey} {body : CommandBody}
    {taskId : TaskId} (operator : Operator command key body)
    (unused : s.operations.get? key = none) (targets : body.Targets (.job taskId)) :
    Edits fresh now (.call command) s (s.remember now key body (.job taskId)) :=
  Edits.single (.notes rfl operator unused targets fun lane impossible => by cases impossible)

theorem edits_requestCancel (good : s.ledger.WellFormed) (taskId : TaskId) (revision : Nat)
    (actor operationId : String) :
    Edits fresh now (.call (.requestCancel taskId revision actor operationId)) s
      (s.requestCancel now taskId revision actor operationId).2 := by
  unfold requestCancel
  dsimp only
  split
  · exact Edits.refl _
  · split <;> exact Edits.refl _
  · next unused =>
    split
    · exact Edits.refl _
    · next m accepted =>
        obtain ⟨found, current⟩ := Option.filter_eq_some_iff.mp accepted
        have same := named good found
        subst same
        have revised : m.revision = revision := of_decide_eq_true current
        subst revised
        refine Edits.trans ?_ (edits_remember (.cancel ..) ?_ (.cancel ..))
        rotate_left
        · have kept : ∀ u : MemoryQueueStore, u.operations = s.operations →
              u.operations.get? (operationKey actor operationId) = none := by
            intro u same
            rw [same]
            exact command_eq_none unused
          apply kept
          split
          · rfl
          · split
            · exact terminal_operations ..
            · rfl
        split
        · next owned =>
            refine Edits.single (.rewrites found (Moves.single (.requestCancel owned)) ?_)
            exact (JobState.active_of_owned owned).symm
        · next released =>
            split
            · next active =>
                have waits : m.state.waiting = true := by
                  rw [JobState.active_eq, Bool.eq_false_iff.mpr released, Bool.false_or] at active
                  exact active
                exact Edits.single (.ends found (Moves.refl _) _ (.withdrawn waits))
            · exact Edits.refl _

theorem retryable?_eq_some {taskId : TaskId} {revision : Nat} {epoch : Option Int}
    {m : MemoryJob} {payload : Payload}
    (offered : s.retryable? taskId revision epoch = some (m, payload)) :
    s.jobs.get? taskId = some m ∧ s.payloads.get? taskId = some payload ∧
      m.revision = revision ∧ m.retryEligible = true ∧ m.state.active = false ∧
      m.privacyEpoch = epoch := by
  unfold retryable? at offered
  split at offered
  · next found held =>
      split at offered
      · next tests =>
          obtain ⟨current, eligible, ended, epoch⟩ := tests
          cases offered
          refine ⟨found, held, current, eligible, ?_, epoch⟩
          rcases ended with state | state <;> rw [state] <;> rfl
      · cases offered
  · cases offered

/-- The parent that is still in the table gives up its grant. -/
theorem edits_handOver {m : MemoryJob} (found : s.jobs.get? m.taskId = some m)
    (ended : m.state.active = false) {revision : Nat} {actor operationId : String}
    {epoch : Option Int} :
    Edits fresh now (.call (.retryJob m.taskId revision actor operationId epoch)) s
      (s.handOver m false) :=
  Edits.single (.drops m.spendGrant found (Moves.single (.spend ended)) rfl)

/-- A retry child that passes every test takes a task id that is not in the table. -/
def RetryVacant (s : MemoryQueueStore) (now : Time) (taskId : TaskId) (revision : Nat)
    (key : OperationKey) (epoch : Option Int) : Prop :=
  ∀ m payload record, s.operations.get? key = none →
    s.retryable? taskId revision epoch = some (m, payload) →
    s.lanes.get? m.lane = some record →
    s.Vacant now (retryChild m key payload epoch) record.policy m.payloadBytes

theorem edits_retryJob (good : s.ledger.WellFormed) (taskId : TaskId) (revision : Nat)
    (actor operationId : String) (epoch : Option Int)
    (vacant : fresh → s.RetryVacant now taskId revision (operationKey actor operationId) epoch) :
    Edits fresh now (.call (.retryJob taskId revision actor operationId epoch)) s
      (s.retryJob now taskId revision actor operationId epoch).2 := by
  unfold retryJob
  dsimp only
  split
  · exact Edits.refl _
  · exact Edits.refl _
  · exact Edits.refl _
  · next unused =>
      split
      · exact Edits.refl _
      · next m payload offered =>
          obtain ⟨found, held, _, eligible, ended, _⟩ := retryable?_eq_some offered
          have same := named good found
          subst same
          split
          · exact Edits.refl _
          · next record lane =>
              have spec := s.admit_spec now
                (retryChild m (operationKey actor operationId) payload epoch) record.policy
                m.payloadBytes
              generalize
                s.admitJob now (retryChild m (operationKey actor operationId) payload epoch)
                  record.policy m.payloadBytes = outcome at spec ⊢
              obtain ⟨admission, t⟩ := outcome
              dsimp only at spec ⊢
              have unremembered := command_eq_none unused
              cases spec with
              | unknownLane | differs | full => exact Edits.refl _
              | refuses => exact Edits.single (.opens _ _)
              | repeated =>
                rw [if_pos (.inr rfl)]
                dsimp only
                split
                · exact edits_remember (.retry ..) unremembered (.retry ..)
                · exact (edits_handOver found ended).trans
                    (edits_remember (.retry ..) unremembered (.retry ..))
              | @joins childLane owner _ new free aliases =>
                rw [if_pos (.inr rfl)]
                dsimp only
                have joined : Edits fresh now
                    (.call (.retryJob m.taskId revision actor operationId epoch)) s
                    (s.coalesce now (retryChild m (operationKey actor operationId) payload epoch)
                      owner) := Edits.single (.joins new free aliases)
                split
                · exact joined.trans (edits_remember (.retry ..) unremembered (.retry ..))
                · refine (joined.trans (edits_handOver ?_ ended)).trans
                    (edits_remember (.retry ..) unremembered (.retry ..))
                  have apart : m.taskId ≠ owner.taskId := by
                    intro clash
                    obtain ⟨⟨id, stored⟩, active⟩ := conflictOwner_active free
                    rw [← named good stored, ← clash, found] at stored
                    cases stored
                    rw [ended] at active
                    cases active
                  exact (s.jobs.get?_set_ne _ apart).trans found
              | @accepts childLane known new free room =>
                have sameLane : m.lane = childLane := by
                  have listed := Lane.ofName?_name m.lane
                  exact Option.some.inj (listed.symm.trans known)
                subst sameLane
                rw [if_pos (.inl rfl), opened_of_get? lane]
                dsimp only
                rw [if_neg (fun differ => differ rfl)]
                refine (Edits.single ?_).trans (edits_remember (.retry ..) ?_ (.retry ..))
                rotate_left
                · have kept : ∀ (u : MemoryQueueStore) (replaced : Bool),
                      u.operations = s.operations →
                      (u.handOver m replaced).operations.get? (operationKey actor operationId) =
                        none := by
                    intro u replaced same
                    cases replaced <;> exact same ▸ unremembered
                  exact kept _ _ rfl
                exact .succeeds rfl found ended eligible held lane
                  (fun promise =>
                    vacant promise m payload record unremembered offered lane m.lane known new
                      free room)
                  new free room

theorem edits_openLane (lane : Lane) (policy : QueuePolicy) :
    Edits fresh now cause s (s.openLane lane policy).2 := by
  rw [openLane_eq]
  exact Edits.single (.opens lane policy)

/-- The record a lane has once it is opened. -/
theorem opened_get? (s : MemoryQueueStore) (lane : Lane) (policy : QueuePolicy) :
    (s.opened lane policy).lanes.get? lane = some (s.laneRecord lane policy) := by
  unfold opened laneRecord Dict.getD Dict.contains
  cases found : s.lanes.get? lane with
  | none =>
    rw [Option.isSome_none, if_neg Bool.false_ne_true]
    exact s.lanes.get?_set_self lane _
  | some record =>
    rw [Option.isSome_some, if_pos rfl]
    exact found

theorem edits_setLaneState (lane : Lane) (revision : Nat) (admissionPaused claimPaused : Bool)
    (actor operationId : String) :
    Edits fresh now
      (.call (.setLaneState lane revision admissionPaused claimPaused actor operationId)) s
      (s.setLaneState now lane revision admissionPaused claimPaused actor operationId).2 := by
  unfold setLaneState readLane
  rw [openLane_eq]
  dsimp only
  split
  · exact Edits.refl _
  · next old remembered =>
    split
    · exact Edits.single (.opens _ _)
    · next unused =>
      have new : old = none := Option.not_isSome_iff_eq_none.mp unused
      subst new
      split
      · exact Edits.single (.opens _ _)
      · let updated : LaneRecord := ⟨revision + 1, admissionPaused, claimPaused,
          (s.laneRecord lane (lanePolicies lane)).policy⟩
        let written : MemoryQueueStore :=
          { s.opened lane (lanePolicies lane) with
            lanes := (s.opened lane (lanePolicies lane)).lanes.set lane updated }
        have sets : Edit fresh now
            (.call (.setLaneState lane revision admissionPaused claimPaused actor operationId))
            (s.opened lane (lanePolicies lane)) written :=
          .sets (s.opened_get? lane (lanePolicies lane)) rfl
        refine ((Edits.single (.opens lane (lanePolicies lane))).trans (Edits.single sets)).trans
          (Edits.single (@Edit.notes _ _ _ written _ _ _ _ rfl (.lane ..)
            (command_eq_none remembered) (.lane ..) ?_))
        rintro other ⟨⟩
        have stored : written.lanes.get? lane = some updated := Dict.get?_set_self _ _ _
        rw [Dict.contains, stored]
        rfl

theorem edits_eraseJobs {userId : Int} {members : List TaskId} (ids : List TaskId)
    (s : MemoryQueueStore) (good : s.ledger.WellFormed)
    (own : ∀ id ∈ ids, ∀ m, s.jobs.get? id = some m → m.userId = userId) :
    Edits fresh now (.call (.eraseUser userId members)) s (ids.foldl eraseJob s) := by
  induction ids generalizing s with
  | nil => exact Edits.refl s
  | cons id rest ih =>
    have first : Edits fresh now (.call (.eraseUser userId members)) s (s.eraseJob id) := by
      cases found : s.jobs.get? id with
      | none =>
        unfold eraseJob
        rw [found]
        exact Edits.refl s
      | some m =>
        have same := named good found
        subst same
        refine Edits.single (@Edit.erases _ _ _ s m members ?_ found)
        rw [own m.taskId List.mem_cons_self m found]
    refine first.trans (ih _ (first.wellFormed good) fun other member m stored => ?_)
    refine own other (List.mem_cons_of_mem _ member) m ?_
    cases found : s.jobs.get? id with
    | none =>
      unfold eraseJob at stored
      rw [found] at stored
      exact stored
    | some old =>
      rw [eraseJob_jobs found, Dict.get?_del] at stored
      split at stored
      · cases stored
      · exact stored

theorem edits_eraseUser (good : s.ledger.WellFormed) (userId : Int) (members : List TaskId) :
    Edits fresh now (.call (.eraseUser userId members)) s (s.eraseUser userId) := by
  refine (edits_eraseJobs (s.userJobs userId) s good fun id member m found => ?_).trans
    (Edits.single (.disowns rfl _))
  have matched := (List.mem_filter.mp member).2
  rw [found] at matched
  exact of_decide_eq_true matched

/-! ## The commands -/

/-- No admission of the command takes a task id that the table still holds. -/
def Fresh (s : MemoryQueueStore) (now : Time) : Command → Prop
  | .admitJob job policy => s.Vacant now job policy 0
  | .retryJob taskId revision actor operationId epoch =>
    s.RetryVacant now taskId revision (operationKey actor operationId) epoch
  | _ => True

theorem edits_swept (good : s.ledger.WellFormed) (command : Command) :
    Edits fresh now .sweep s (s.swept now command) := by
  unfold swept
  split
  · exact edits_sweep good
  · exact Edits.refl s

/-- What a command does after its sweep is made of elementary changes. -/
theorem edits_act (good : s.ledger.WellFormed) (command : Command) :
    Edits (s.Fresh now command) now (.call command) s (s.act now command).2 := by
  cases command with
  | admitJob job policy => exact edits_admitJob job policy id
  | claim lane ownerToken => exact edits_claims (claim_spec good lane ownerToken)
  | loadPayload taskId ownerToken => exact Edits.refl _
  | heartbeat taskId ownerToken revision => exact edits_heartbeat good taskId ownerToken revision
  | updateProgress taskId ownerToken revision summary =>
    exact edits_updateProgress good taskId ownerToken revision summary
  | finish taskId ownerToken revision result delay =>
    exact edits_finish good taskId ownerToken revision result delay
  | requestCancel taskId revision actor operationId =>
    exact edits_requestCancel good taskId revision actor operationId
  | retryJob taskId revision actor operationId epoch =>
    exact edits_retryJob good taskId revision actor operationId epoch id
  | sweep => exact Edits.refl _
  | setLaneState lane revision admissionPaused claimPaused actor operationId =>
    exact edits_setLaneState lane revision admissionPaused claimPaused actor operationId
  | eraseUser userId members => exact edits_eraseUser good userId members
  | readJob | privateRecord | readJobByOperation | readJobsByConflicts => exact Edits.refl _
  | readLane lane => exact edits_openLane lane (lanePolicies lane)
  | listJobs lane state cursor limit => exact Edits.refl _

theorem command_exec (good : s.ledger.WellFormed) (command : Command) :
    Ledger.Command ((s.swept now command).Fresh now command) now command s.ledger
      (s.exec now command).2.ledger := by
  have sweep : Edits ((s.swept now command).Fresh now command) now .sweep s
      (s.swept now command) := edits_swept good command
  have clean := sweep.wellFormed good
  exact ⟨(s.swept now command).ledger, sweep.progress good,
    (edits_act clean command).progress clean⟩

end Phases

end MemoryQueueStore

namespace MemoryMachine

def ledger (machine : MemoryMachine) : Ledger := machine.store.ledger

/-- No admission of the step takes the id of a record. -/
def Fresh (machine : MemoryMachine) : Label → Prop
  | .advance _ => True
  | .call command =>
    (machine.store.swept machine.clock command).Fresh machine.clock command

theorem ledger_step (machine : MemoryMachine) (good : machine.ledger.WellFormed)
    (label : Label) :
    Ledger.Step (machine.Fresh label) machine.clock label machine.ledger
      (machine.step label).ledger := by
  cases label with
  | advance elapsed => rfl
  | call command => exact MemoryQueueStore.command_exec good command

theorem initial_wellFormed (clock : Time) : (initial clock).ledger.WellFormed :=
  Ledger.empty_wellFormed

end MemoryMachine

end BobbyBotique.Queue
