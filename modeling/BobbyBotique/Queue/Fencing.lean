import BobbyBotique.Queue.Backend

/-!
# Owner fencing

A worker names its owner token, and on most calls a revision.  A call whose
token or revision is not the job's current one leaves what its sweep leaves.
A finish remembers the token that settled the job until the next claim, so the
second attempt of `_mutate` cannot settle it again.
-/

namespace BobbyBotique.Queue

/-- The calls of a worker with its owner token; a load carries no revision. -/
inductive OwnerCall (id : TaskId) (ownerToken : String) : Option Nat → Command → Prop where
  | load : OwnerCall id ownerToken none (.loadPayload id ownerToken)
  | heartbeat (revision : Nat) :
      OwnerCall id ownerToken (some revision) (.heartbeat id ownerToken revision)
  | updateProgress (revision : Nat) (summary : Summary) :
      OwnerCall id ownerToken (some revision) (.updateProgress id ownerToken revision summary)
  | finish (revision : Nat) (result : JobResult) (delay : Time) :
      OwnerCall id ownerToken (some revision) (.finish id ownerToken revision result delay)

/-- The token holds the record, at the revision if one is named. -/
structure JobRecord.HeldBy (m : JobRecord) (ownerToken : String) (revision : Option Nat) :
    Prop where
  owned : m.state.owned = true
  token : m.ownerToken = some ownerToken
  current : ∀ named, revision = some named → m.revision = named

theorem JobRecord.OwnedBy.held {m : JobRecord} {ownerToken : String} {revision : Nat}
    (owned : m.OwnedBy ownerToken revision) : m.HeldBy ownerToken (some revision) :=
  ⟨owned.owned, owned.token, fun _ same => owned.current.trans (Option.some.inj same)⟩

/-- Nobody holds the record, and if it is the job's then the token has settled it. -/
structure JobRecord.Released (m : JobRecord) (sequence : Nat) (ownerToken : String) : Prop where
  free : m.state.owned = false
  settled : m.sequence = sequence → m.finishToken = some ownerToken

namespace Moves

variable {now : Time} {cause : Cause} {m next : JobRecord}

/-- A job that nobody starts stays released. -/
theorem released (moves : Moves now cause m next)
    (unstarted : next.attemptsStarted = m.attemptsStarted) {sequence : Nat}
    {ownerToken : String} (released : m.Released sequence ownerToken) :
    next.Released sequence ownerToken := by
  induction moves with
  | refl => exact released
  | @tail mid next rest last ih =>
    have below : m.attemptsStarted ≤ mid.attemptsStarted := attempts_le rest
    have above : mid.attemptsStarted ≤ next.attemptsStarted := attempts_le (single last)
    have mid' := ih (by omega)
    constructor
    · cases owned : next.state.owned with
      | false => rfl
      | true =>
        rcases last.taken owned with held | started
        · exact absurd (mid'.free.symm.trans held) Bool.false_ne_true
        · omega
    · intro same
      rcases last.remembers (mid'.settled (last.sameJob.sequence ▸ same)) with kept | started
      · exact kept
      · omega

/-- After its sweep the command `sweep` does nothing. -/
theorem of_sweepCall (moves : Moves now (.call .sweep) m next) : next = m := by
  induction moves with
  | refl => rfl
  | tail _ last =>
    cases last with
    | ending how => cases how

end Moves

/-- A command that does not start the job leaves it released. -/
theorem Ledger.Command.released {fresh : Prop} {now : Time} {command : Queue.Command}
    {before after : Ledger} (ran : Ledger.Command fresh now command before after) {id : TaskId}
    {sequence : Nat} {ownerToken : String} (bound : sequence ≤ before.sequence)
    (unstarted : ∀ m next, before.records.get? id = some m → after.records.get? id = some next →
      (∃ lane token, command = .claim lane token) → next.attemptsStarted = m.attemptsStarted)
    (released : ∀ m, before.records.get? id = some m → m.Released sequence ownerToken)
    {next : JobRecord} (later : after.records.get? id = some next) :
    next.Released sequence ownerToken := by
  obtain ⟨swept, sweep, own⟩ := ran
  have fate := own.fate id
  rw [later] at fate
  generalize between : swept.records.get? id = middle at fate
  cases fate with
  | @kept r _ moves =>
    obtain ⟨m, found, first⟩ := sweep.sweep_origin between
    have upTo := first.unstarted fun _ _ impossible => by cases impossible
    have same : next.attemptsStarted = r.attemptsStarted := by
      by_cases claims : ∃ lane token, command = .claim lane token
      · exact (unstarted m next found later claims).trans upTo.symm
      · apply moves.unstarted
        intro lane token called
        cases called
        exact claims ⟨lane, token, rfl⟩
    exact moves.released same (first.released upTo (released m found))
  | @born _ first _ admission _ _ newer _ moves =>
    have same := moves.unstarted admission.not_claim
    refine moves.released same ⟨JobState.owned_eq_false_of_waiting admission.waiting, ?_⟩
    intro unchanged
    have counted := sweep.counted
    omega

namespace MemoryQueueStore

variable {now : Time} {s t : MemoryQueueStore} {id : TaskId} {ownerToken : String}

theorem ownerCall_refused {revision : Option Nat} {command : Command}
    (call : OwnerCall id ownerToken revision command)
    (free : ∀ m, s.jobs.get? id = some m → ¬ m.HeldBy ownerToken revision) :
    (act now s command).2 = s ∧ ((∃ reason, (act now s command).1 = .conflict reason) ∨
        ∃ m, s.jobs.get? id = some m ∧ m.finishToken = some ownerToken ∧
          (act now s command).1 = .job (some m.snapshot)) := by
  have unowned : ∀ named, revision = some named → s.owned? id ownerToken named = none := by
    intro named same
    refine Option.eq_none_iff_forall_not_mem.mpr fun m member => ?_
    obtain ⟨found, owned⟩ := owned?_eq_some.mp member
    exact free m found (same ▸ owned.held)
  cases call with
  | load =>
    refine ⟨rfl, .inl ⟨"payload_not_available", ?_⟩⟩
    have absent : ((s.jobs.get? id).filter fun m =>
        decide (m.state = .running) && decide (m.ownerToken = some ownerToken)) = none := by
      rw [Option.filter_eq_none_iff]
      intro m found holds
      simp only [Bool.and_eq_true, decide_eq_true_eq] at holds
      exact free m found ⟨by rw [holds.1]; rfl, holds.2, fun _ same => by cases same⟩
    simp only [act, loadPayload, absent]
  | heartbeat revision =>
    simp only [act, heartbeat, unowned revision rfl]
    exact ⟨trivial, .inl ⟨_, rfl⟩⟩
  | updateProgress revision summary =>
    simp only [act, updateProgress, unowned revision rfl]
    exact ⟨trivial, .inl ⟨_, rfl⟩⟩
  | finish revision result delay =>
    simp only [act, finish]
    split
    · next m settled =>
        obtain ⟨found, remembered⟩ := Option.filter_eq_some_iff.mp settled
        exact ⟨rfl, .inr ⟨m, found, of_decide_eq_true remembered, rfl⟩⟩
    · simp only [unowned revision rfl]
      exact ⟨trivial, .inl ⟨_, rfl⟩⟩

theorem exec_ownerCall {revision : Option Nat} {command : Command}
    (call : OwnerCall id ownerToken revision command) :
    s.exec now command = act now (s.sweep now) command := by
  cases call <;> simp only [exec, swept, sweeps, if_true]

/-- A repeated finish returns the job and leaves the store. -/
theorem finish_again {m : MemoryJob} (found : s.jobs.get? id = some m)
    (settled : m.finishToken = some ownerToken) (revision : Nat) (result : JobResult)
    (delay : Time) :
    act now s (.finish id ownerToken revision result delay) = (.job (some m.snapshot), s) := by
  have remembered : ((s.jobs.get? id).filter fun m =>
      decide (m.finishToken = some ownerToken)) = some m :=
    Option.filter_eq_some_iff.mpr ⟨found, decide_eq_true settled⟩
  simp only [act, finish, remembered]

theorem markSettled_get? {next : MemoryJob} (stored : s.jobs.get? id = some next) :
    (s.markSettled id ownerToken).jobs.get? id =
      some { next with toJobRecord := next.settledBy ownerToken } := by
  unfold markSettled Dict.modify
  rw [stored]
  exact Dict.get?_set_self _ _ _

/-- A finish that returns the job has settled it. -/
theorem finish_settles (good : s.ledger.WellFormed) {revision : Nat} {result : JobResult}
    {delay : Time} {snapshot : Option JobSnapshot}
    (replied : (act now s (.finish id ownerToken revision result delay)).1 = .job snapshot) :
    ∃ m, (act now s (.finish id ownerToken revision result delay)).2.jobs.get? id = some m ∧
      m.finishToken = some ownerToken ∧ m.state.owned = false := by
  simp only [act, finish] at replied ⊢
  split at replied
  · next m settled =>
      obtain ⟨found, remembered⟩ := Option.filter_eq_some_iff.mp settled
      have token : m.finishToken = some ownerToken := of_decide_eq_true remembered
      exact ⟨m, found, token, (good.record _ _ (ledger_of_get? found)).released token⟩
  · split at replied
    · cases replied
    · next m owner =>
        obtain ⟨found, owned⟩ := owned?_eq_some.mp owner
        have same := named good found
        subst same
        split at replied
        · cases replied
        · next clean _ =>
            have owned' := owned.summarise clean
            obtain ⟨next, stored, named', released, _⟩ :=
              (settle_spec s now (m := { m with toJobRecord := m.summarise clean }) owned'
                result delay).released
            exact ⟨{ next with toJobRecord := next.settledBy ownerToken }, markSettled_get? stored,
              rfl, released⟩

/-- The loop of a claim starts nothing that it passes. -/
theorem Passes.unstarted (passes : Passes now s t) {next : MemoryJob}
    (later : t.jobs.get? id = some next) :
    ∃ m, s.jobs.get? id = some m ∧ next.attemptsStarted = m.attemptsStarted := by
  have ended : ∀ (s : MemoryQueueStore) (m r : MemoryJob) (state : JobState)
      (reason : Option String) (safeRetry : Bool), s.jobs.get? m.taskId = some m →
      (s.terminal now m state reason safeRetry).jobs.get? id = some r →
      ∃ m, s.jobs.get? id = some m ∧ r.attemptsStarted = m.attemptsStarted := by
    intro s m r state reason safeRetry found later
    rw [terminal_jobs, Dict.get?_set] at later
    split at later
    · next same =>
        cases later
        exact ⟨m, same ▸ found, rfl⟩
    · exact ⟨r, later, rfl⟩
  induction passes with
  | refl => exact ⟨next, later, rfl⟩
  | exhausted found _ _ _ ih | payloadGone found _ _ _ ih =>
    obtain ⟨r, between, same⟩ := ih later
    obtain ⟨m, found', same'⟩ := ended _ _ _ _ _ _ found between
    exact ⟨m, found', same.trans same'⟩

/-- A claim starts no job but the one it hands out. -/
theorem claim_others (good : s.ledger.WellFormed) {lane : Lane} {next : MemoryJob}
    (elsewhere : ∀ claim, (act now s (.claim lane ownerToken)).1 = .claimed (some claim) →
      claim.snapshot.taskId ≠ id)
    (later : (act now s (.claim lane ownerToken)).2.jobs.get? id = some next) :
    ∃ m, s.jobs.get? id = some m ∧ next.attemptsStarted = m.attemptsStarted := by
  have spec := @claim_spec now s good lane ownerToken
  simp only [act] at elsewhere later
  generalize s.claim now lane ownerToken = outcome at spec elsewhere later
  obtain ⟨result, t⟩ := outcome
  cases spec with
  | nothing passes => exact passes.unstarted later
  | @starts u m passes _ _ _ _ _ _ =>
    refine passes.unstarted ?_
    exact (u.jobs.get?_set_ne _ (elsewhere _ rfl).symm).symm.trans later

end MemoryQueueStore

namespace Script

variable {now : Time} {db after : Db} {id : TaskId} {ownerToken : String} {lane : Lane}

theorem ownerCall_refused {revision : Option Nat} {command : Command}
    (call : OwnerCall id ownerToken revision command)
    (free : ∀ m, db.jobs.get? id = some m → ¬ m.HeldBy ownerToken revision) :
    (act now db command).2 = db ∧ ((∃ reason, (act now db command).1 = .conflict reason) ∨
        ∃ m, db.jobs.get? id = some m ∧ m.finishToken = some ownerToken ∧
          (act now db command).1 = .job (some m.snapshot)) := by
  have unowned : ∀ named, revision = some named → owned? db id ownerToken named = none := by
    intro named same
    refine Option.eq_none_iff_forall_not_mem.mpr fun m member => ?_
    obtain ⟨found, owned⟩ := owned?_eq_some.mp member
    exact free m found (same ▸ owned.held)
  cases call with
  | load =>
    refine ⟨rfl, .inl ⟨"payload_not_available", ?_⟩⟩
    have absent : ((db.jobs.get? id).filter fun m =>
        decide (m.state = .running) && decide (m.ownerToken = some ownerToken)) = none := by
      rw [Option.filter_eq_none_iff]
      intro m found holds
      simp only [Bool.and_eq_true, decide_eq_true_eq] at holds
      exact free m found ⟨by rw [holds.1]; rfl, holds.2, fun _ same => by cases same⟩
    simp only [act, load, absent]
  | heartbeat revision =>
    simp only [act, heartbeat, unowned revision rfl]
    exact ⟨trivial, .inl ⟨_, rfl⟩⟩
  | updateProgress revision summary =>
    simp only [act, progress, unowned revision rfl, Option.filter_none]
    split <;> exact ⟨rfl, .inl ⟨_, rfl⟩⟩
  | finish revision result delay =>
    simp only [act, finish]
    split
    · exact ⟨rfl, .inl ⟨_, rfl⟩⟩
    · split
      · next m settled =>
          obtain ⟨found, remembered⟩ := Option.filter_eq_some_iff.mp settled
          exact ⟨rfl, .inr ⟨m, found, of_decide_eq_true remembered, rfl⟩⟩
      · simp only [unowned revision rfl]
        exact ⟨trivial, .inl ⟨_, rfl⟩⟩

theorem exec_ownerCall {revision : Option Nat} {command : Command}
    (call : OwnerCall id ownerToken revision command) :
    exec now db command = act now (sweep db now) command ∨
      ∃ reason, exec now db command = (.conflict reason, db) := by
  cases call with
  | load | heartbeat => exact .inl (by simp only [exec, answered])
  | updateProgress revision summary =>
    cases refused : (PublicSummary.ofSummary? summary).isNone with
    | false => exact .inl (by simp only [exec, answered, refused, if_false, Bool.false_eq_true])
    | true => exact .inr ⟨"invalid_public_summary", by simp only [exec, answered, refused, if_true]⟩
  | finish revision result delay =>
    cases refused : (PublicSummary.ofSummary? result.resultSummary).isNone with
    | false => exact .inl (by simp only [exec, answered, refused, if_false, Bool.false_eq_true])
    | true => exact .inr ⟨"invalid_public_summary", by simp only [exec, answered, refused, if_true]⟩

/-- A repeated finish returns the job and leaves the keys. -/
theorem finish_again {m : ScriptJob} (found : db.jobs.get? id = some m)
    (settled : m.finishToken = some ownerToken) (revision : Nat) {result : JobResult}
    (publishable : (PublicSummary.ofSummary? result.resultSummary).isSome = true)
    (delay : Time) :
    act now db (.finish id ownerToken revision result delay) = (.job (some m.snapshot), db) := by
  have remembered : ((db.jobs.get? id).filter fun m =>
      decide (m.finishToken = some ownerToken)) = some m :=
    Option.filter_eq_some_iff.mpr ⟨found, decide_eq_true settled⟩
  obtain ⟨clean, checked⟩ := Option.isSome_iff_exists.mp publishable
  simp only [act, finish, checked, remembered]

theorem markSettled_get? {next : ScriptJob} (stored : db.jobs.get? id = some next) :
    (markSettled db id ownerToken).jobs.get? id =
      some { next with toJobRecord := next.settledBy ownerToken } := by
  unfold markSettled Dict.modify
  rw [stored]
  exact Dict.get?_set_self _ _ _

/-- A finish that returns the job has settled it. -/
theorem finish_settles (good : (ledger db).WellFormed) {revision : Nat} {result : JobResult}
    {delay : Time} {snapshot : Option JobSnapshot}
    (replied : (act now db (.finish id ownerToken revision result delay)).1 = .job snapshot) :
    ∃ m, (act now db (.finish id ownerToken revision result delay)).2.jobs.get? id = some m ∧
      m.finishToken = some ownerToken ∧ m.state.owned = false := by
  simp only [act, finish] at replied ⊢
  split at replied
  · cases replied
  · next clean _ =>
      split at replied
      · next m settled =>
          obtain ⟨found, remembered⟩ := Option.filter_eq_some_iff.mp settled
          have token : m.finishToken = some ownerToken := of_decide_eq_true remembered
          exact ⟨m, found, token, (good.record _ _ (ledger_of_get? found)).released token⟩
      · split at replied
        · cases replied
        · next m owner =>
            obtain ⟨found, owned⟩ := owned?_eq_some.mp owner
            have same := named good found
            subst same
            have owned' := owned.summarise clean
            obtain ⟨next, stored, named', released, _⟩ :=
              (settle_spec db now (m := { m with toJobRecord := m.summarise clean }) owned'
                result delay).released
            exact ⟨{ next with toJobRecord := next.settledBy ownerToken },
              markSettled_get? stored, rfl, released⟩

/-- The loop of a claim starts nothing that it passes. -/
theorem Passes.unstarted (passes : Passes now lane db after) {next : ScriptJob}
    (later : after.jobs.get? id = some next) :
    ∃ m, db.jobs.get? id = some m ∧ next.attemptsStarted = m.attemptsStarted := by
  have ended : ∀ (db : Db) (m r : ScriptJob) (state : JobState) (reason : Option String)
      (safe : Bool), db.jobs.get? m.taskId = some m →
      (terminal db now m state reason safe).jobs.get? id = some r →
      ∃ m, db.jobs.get? id = some m ∧ r.attemptsStarted = m.attemptsStarted := by
    intro db m r state reason safe found later
    rw [terminal_jobs, Dict.get?_set] at later
    split at later
    · next same =>
        cases later
        exact ⟨m, same ▸ found, rfl⟩
    · exact ⟨r, later, rfl⟩
  induction passes with
  | refl => exact ⟨next, later, rfl⟩
  | unlists _ _ ih => exact ih later
  | exhausted found _ _ _ ih | payloadGone found _ _ _ ih =>
    obtain ⟨r, between, same⟩ := ih later
    obtain ⟨m, found', same'⟩ := ended _ _ _ _ _ _ found between
    exact ⟨m, found', same.trans same'⟩

/-- A claim starts no job but the one it hands out. -/
theorem claim_others (good : (ledger db).WellFormed) {next : ScriptJob}
    (elsewhere : ∀ claim, (act now db (.claim lane ownerToken)).1 = .claimed (some claim) →
      claim.snapshot.taskId ≠ id)
    (later : (act now db (.claim lane ownerToken)).2.jobs.get? id = some next) :
    ∃ m, db.jobs.get? id = some m ∧ next.attemptsStarted = m.attemptsStarted := by
  have spec := @claim_spec now db good lane ownerToken
  simp only [act] at elsewhere later
  generalize claim db now lane ownerToken = outcome at spec elsewhere later
  obtain ⟨result, after⟩ := outcome
  cases spec with
  | nothing passes => exact passes.unstarted later
  | @starts middle m passes _ _ _ _ _ _ =>
    have ne : id ≠ (started m now ownerToken).taskId := (elsewhere _ rfl).symm
    rw [started_taskId] at ne
    have stored : (start middle now lane m ownerToken).jobs.get? id = some next := later
    rw [start_jobs, Dict.get?_set_ne _ _ ne] at stored
    exact passes.unstarted stored

end Script

/-! ## The machines -/

section Machines

variable {id : TaskId} {ownerToken : String} {revision : Option Nat} {command : Command}

theorem MemoryMachine.step_sweep (machine : MemoryMachine) :
    machine.step (.call .sweep) =
      { machine with store := machine.store.sweep machine.clock } := rfl

theorem ScriptMachine.step_sweep (machine : ScriptMachine) :
    machine.step (.call .sweep) =
      { machine with db := Script.sweep machine.db machine.clock } := by
  simp only [step, Script.exec, Script.answered, Script.act]

/-- The call of a worker that does not hold the job changes nothing. -/
theorem MemoryMachine.ownerCall_refused (machine : MemoryMachine)
    (call : OwnerCall id ownerToken revision command)
    (free : ∀ m, (machine.step (.call .sweep)).ledger.records.get? id = some m →
      ¬ m.HeldBy ownerToken revision) :
    machine.step (.call command) = machine.step (.call .sweep) ∧
      ((∃ reason, machine.reply command = .conflict reason) ∨
        ∃ m, (machine.step (.call .sweep)).ledger.records.get? id = some m ∧
          m.finishToken = some ownerToken ∧ machine.reply command = .job (some m.snapshot)) := by
  rw [step_sweep] at free ⊢
  have exec : machine.store.exec machine.clock command =
      MemoryQueueStore.act machine.clock (machine.store.sweep machine.clock) command :=
    MemoryQueueStore.exec_ownerCall call
  obtain ⟨same, outcome⟩ := @MemoryQueueStore.ownerCall_refused machine.clock
    (machine.store.sweep machine.clock) _ _ _ _ call fun m found =>
      free m.toJobRecord (MemoryQueueStore.ledger_of_get? found)
  simp only [step, reply, exec, same, true_and]
  refine outcome.imp_right ?_
  rintro ⟨m, found, settled, replied⟩
  exact ⟨m.toJobRecord, MemoryQueueStore.ledger_of_get? found, settled, replied⟩

theorem ScriptMachine.ownerCall_refused (machine : ScriptMachine)
    (call : OwnerCall id ownerToken revision command)
    (free : ∀ m, (machine.step (.call .sweep)).ledger.records.get? id = some m →
      ¬ m.HeldBy ownerToken revision) :
    (machine.step (.call command) = machine.step (.call .sweep) ∨
        machine.step (.call command) = machine) ∧
      ((∃ reason, machine.reply command = .conflict reason) ∨
        ∃ m, (machine.step (.call .sweep)).ledger.records.get? id = some m ∧
          m.finishToken = some ownerToken ∧ machine.reply command = .job (some m.snapshot)) := by
  rw [step_sweep] at free ⊢
  rcases @Script.exec_ownerCall machine.clock machine.db _ _ _ _ call with exec | ⟨reason, exec⟩
  · obtain ⟨same, outcome⟩ := @Script.ownerCall_refused machine.clock
      (Script.sweep machine.db machine.clock) _ _ _ _ call fun m found =>
        free m.toJobRecord (Script.ledger_of_get? found)
    simp only [step, reply, exec, same, true_or, true_and]
    refine outcome.imp_right ?_
    rintro ⟨m, found, settled, replied⟩
    exact ⟨m.toJobRecord, Script.ledger_of_get? found, settled, replied⟩
  · simp only [step, reply, exec]
    exact ⟨.inr trivial, .inl ⟨reason, rfl⟩⟩

/-- A finish that returns the job has settled it. -/
theorem MemoryMachine.finish_settles {machine : MemoryMachine}
    (good : machine.ledger.WellFormed) {revision : Nat} {result : JobResult} {delay : Time}
    {snapshot : Option JobSnapshot}
    (replied : machine.reply (.finish id ownerToken revision result delay) = .job snapshot) :
    ∃ m, (machine.step (.call (.finish id ownerToken revision result delay))).ledger.records.get?
        id = some m ∧ m.finishToken = some ownerToken ∧ m.state.owned = false := by
  have exec := @MemoryQueueStore.exec_ownerCall machine.clock machine.store _ _ _ _
    (.finish revision result delay : OwnerCall id ownerToken _ _)
  have swept : (machine.store.sweep machine.clock).ledger.WellFormed :=
    (@MemoryQueueStore.edits_sweep True _ _ good).wellFormed good
  simp only [reply, exec] at replied
  obtain ⟨m, found, settled, released⟩ := MemoryQueueStore.finish_settles swept replied
  simp only [step, exec]
  exact ⟨m.toJobRecord, MemoryQueueStore.ledger_of_get? found, settled, released⟩

theorem ScriptMachine.finish_settles {machine : ScriptMachine}
    (good : machine.ledger.WellFormed) {revision : Nat} {result : JobResult} {delay : Time}
    {snapshot : Option JobSnapshot}
    (replied : machine.reply (.finish id ownerToken revision result delay) = .job snapshot) :
    ∃ m, (machine.step (.call (.finish id ownerToken revision result delay))).ledger.records.get?
        id = some m ∧ m.finishToken = some ownerToken ∧ m.state.owned = false := by
  have swept : (Script.ledger (Script.sweep machine.db machine.clock)).WellFormed :=
    (@Script.edits_sweep (fun _ _ => True) _ _ good).wellFormed good
  rcases @Script.exec_ownerCall machine.clock machine.db _ _ _ _
    (.finish revision result delay : OwnerCall id ownerToken _ _) with exec | ⟨reason, exec⟩
  · simp only [reply, exec] at replied
    obtain ⟨m, found, settled, released⟩ := Script.finish_settles swept replied
    simp only [step, exec]
    exact ⟨m.toJobRecord, Script.ledger_of_get? found, settled, released⟩
  · simp only [reply, exec] at replied
    cases replied

/-- A repeated finish returns the job. -/
theorem MemoryMachine.finish_again {machine : MemoryMachine} {m : JobRecord}
    (found : (machine.step (.call .sweep)).ledger.records.get? id = some m)
    (settled : m.finishToken = some ownerToken) (revision : Nat) (result : JobResult)
    (delay : Time) :
    machine.reply (.finish id ownerToken revision result delay) = .job (some m.snapshot) := by
  rw [step_sweep] at found
  obtain ⟨r, stored, rfl⟩ := MemoryQueueStore.get?_of_ledger found
  have exec := @MemoryQueueStore.exec_ownerCall machine.clock machine.store _ _ _ _
    (.finish revision result delay : OwnerCall id ownerToken _ _)
  simp only [reply, exec, MemoryQueueStore.finish_again stored settled]

theorem ScriptMachine.finish_again {machine : ScriptMachine} {m : JobRecord}
    (found : (machine.step (.call .sweep)).ledger.records.get? id = some m)
    (settled : m.finishToken = some ownerToken) (revision : Nat) {result : JobResult}
    (publishable : (PublicSummary.ofSummary? result.resultSummary).isSome = true)
    (delay : Time) :
    machine.reply (.finish id ownerToken revision result delay) = .job (some m.snapshot) := by
  rw [step_sweep] at found
  obtain ⟨r, stored, rfl⟩ := Script.get?_of_ledger found
  have sent : Script.answered machine.clock machine.db
      (.finish id ownerToken revision result delay) = none := by
    obtain ⟨clean, checked⟩ := Option.isSome_iff_exists.mp publishable
    simp [Script.answered, checked]
  simp only [reply, Script.exec, sent, Script.finish_again stored settled revision publishable]

/-- A claim starts no job but the one it hands out. -/
theorem MemoryMachine.claim_others {machine : MemoryMachine}
    (good : machine.ledger.WellFormed) {lane : Lane} {next : JobRecord}
    (elsewhere : ∀ claim, machine.reply (.claim lane ownerToken) = .claimed (some claim) →
      claim.snapshot.taskId ≠ id)
    (later : (machine.step (.call (.claim lane ownerToken))).ledger.records.get? id = some next) :
    ∃ m, (machine.step (.call .sweep)).ledger.records.get? id = some m ∧
      next.attemptsStarted = m.attemptsStarted := by
  have exec : machine.store.exec machine.clock (.claim lane ownerToken) =
      MemoryQueueStore.act machine.clock (machine.store.sweep machine.clock)
        (.claim lane ownerToken) := by
    simp only [MemoryQueueStore.exec, MemoryQueueStore.swept, MemoryQueueStore.sweeps, if_true]
  have swept : (machine.store.sweep machine.clock).ledger.WellFormed :=
    (@MemoryQueueStore.edits_sweep True _ _ good).wellFormed good
  simp only [reply, exec] at elsewhere
  simp only [step, exec] at later
  obtain ⟨r, stored, rfl⟩ := MemoryQueueStore.get?_of_ledger later
  obtain ⟨m, found, same⟩ := MemoryQueueStore.claim_others swept elsewhere stored
  rw [step_sweep]
  exact ⟨m.toJobRecord, MemoryQueueStore.ledger_of_get? found, same⟩

theorem ScriptMachine.claim_others {machine : ScriptMachine}
    (good : machine.ledger.WellFormed) {lane : Lane} {next : JobRecord}
    (elsewhere : ∀ claim, machine.reply (.claim lane ownerToken) = .claimed (some claim) →
      claim.snapshot.taskId ≠ id)
    (later : (machine.step (.call (.claim lane ownerToken))).ledger.records.get? id = some next) :
    ∃ m, (machine.step (.call .sweep)).ledger.records.get? id = some m ∧
      next.attemptsStarted = m.attemptsStarted := by
  have exec : Script.exec machine.clock machine.db (.claim lane ownerToken) =
      Script.act machine.clock (Script.sweep machine.db machine.clock)
        (.claim lane ownerToken) := by
    simp only [Script.exec, Script.answered]
  have swept : (Script.ledger (Script.sweep machine.db machine.clock)).WellFormed :=
    (@Script.edits_sweep (fun _ _ => True) _ _ good).wellFormed good
  simp only [reply, exec] at elsewhere
  simp only [step, exec, ledger] at later
  obtain ⟨r, stored, rfl⟩ := Script.get?_of_ledger later
  obtain ⟨m, found, same⟩ := Script.claim_others swept elsewhere stored
  rw [step_sweep]
  exact ⟨m.toJobRecord, Script.ledger_of_get? found, same⟩

end Machines

namespace Backend

variable {backend : Backend} {state : backend.State} {id : TaskId} {ownerToken : String}

/-- What the sweep alone makes of a state. -/
def swept (backend : Backend) (state : backend.State) : backend.State :=
  backend.step state (.call .sweep)

/-- The command adds nothing to its sweep, or it is refused before the store is asked. -/
def Unchanged (backend : Backend) (state : backend.State) (command : Command) : Prop :=
  backend.step state (.call command) = backend.swept state ∨
    backend.step state (.call command) = state

/-- The result may be published, which the Redis client checks before it asks the store. -/
def Sendable : Backend → JobResult → Prop
  | .memory, _ => True
  | .redis, result => (PublicSummary.ofSummary? result.resultSummary).isSome = true

/-- A swept record comes from a record by transitions of the sweep. -/
theorem swept_origin (sound : backend.Sound state) {m : JobRecord}
    (later : backend.record (backend.swept state) id = some m) :
    ∃ old, backend.record state id = some old ∧ Moves (backend.clock state) .sweep old m := by
  obtain ⟨middle, sweep, own⟩ := ledger_step sound (.call .sweep)
  have fate := own.fate id
  rw [show (backend.ledger (backend.step state (.call .sweep))).records.get? id = some m from
    later] at fate
  generalize between : middle.records.get? id = r at fate
  cases fate with
  | kept moves =>
    obtain ⟨old, found, first⟩ := sweep.sweep_origin between
    exact ⟨old, found, moves.of_sweepCall ▸ first⟩
  | born admission => cases admission

/-- The call of a worker that does not hold the job changes nothing. -/
theorem ownerCall_refused {revision : Option Nat} {command : Command}
    (call : OwnerCall id ownerToken revision command)
    (free : ∀ m, backend.record (backend.swept state) id = some m →
      ¬ m.HeldBy ownerToken revision) :
    backend.Unchanged state command ∧ ((∃ reason, backend.reply state command = .conflict reason) ∨
        ∃ m, backend.record (backend.swept state) id = some m ∧ m.finishToken = some ownerToken ∧
          backend.reply state command = .job (some m.snapshot)) := by
  cases backend with
  | memory =>
    have refused := MemoryMachine.ownerCall_refused state call free
    exact ⟨.inl refused.1, refused.2⟩
  | redis => exact ScriptMachine.ownerCall_refused state call free

/-- The label does not hand the job out. -/
def Unclaimed (backend : Backend) (id : TaskId) (state : backend.State) (label : Label) : Prop :=
  ∀ lane ownerToken claim, label = .call (.claim lane ownerToken) →
    backend.reply state (.claim lane ownerToken) = .claimed (some claim) →
    claim.snapshot.taskId ≠ id

/-- A claim that does not hand the job out does not start it. -/
theorem claim_others (sound : backend.Sound state) {lane : Lane}
    (unclaimed : backend.Unclaimed id state (.call (.claim lane ownerToken)))
    {m next : JobRecord} (found : backend.record state id = some m)
    (later : backend.record (backend.step state (.call (.claim lane ownerToken))) id =
      some next) : next.attemptsStarted = m.attemptsStarted := by
  have elsewhere : ∀ claim, backend.reply state (.claim lane ownerToken) = .claimed (some claim) →
      claim.snapshot.taskId ≠ id := fun claim => unclaimed lane ownerToken claim rfl
  have middle : ∃ r, backend.record (backend.swept state) id = some r ∧
      next.attemptsStarted = r.attemptsStarted := by
    cases backend with
    | memory => exact MemoryMachine.claim_others sound elsewhere later
    | redis => exact ScriptMachine.claim_others sound.1 elsewhere later
  obtain ⟨r, between, same⟩ := middle
  obtain ⟨old, found', moves⟩ := swept_origin sound between
  rw [found] at found'
  cases found'
  exact same.trans (moves.unstarted fun _ _ impossible => by cases impossible)

/-- Until the job is handed out again it stays released. -/
theorem released_step (sound : backend.Sound state) {label : Label}
    (unclaimed : backend.Unclaimed id state label) {sequence : Nat}
    (bound : sequence ≤ (backend.ledger state).sequence)
    (released : ∀ m, backend.record state id = some m → m.Released sequence ownerToken)
    (next : JobRecord) (later : backend.record (backend.step state label) id = some next) :
    next.Released sequence ownerToken := by
  have ran := ledger_step sound label
  cases label with
  | advance elapsed =>
    have same : backend.ledger (backend.step state (.advance elapsed)) = backend.ledger state :=
      ran
    rw [record, same] at later
    exact released next later
  | call command =>
    refine Ledger.Command.released ran bound ?_ released later
    rintro m next found later ⟨lane, token, rfl⟩
    exact claim_others sound unclaimed found later

theorem released_run (sound : backend.Sound state) {labels : List Label}
    (unclaimed : Run.Along backend.step (backend.Unclaimed id) state labels) {sequence : Nat}
    (bound : sequence ≤ (backend.ledger state).sequence)
    (released : ∀ m, backend.record state id = some m → m.Released sequence ownerToken)
    (next : JobRecord)
    (later : backend.record (Run.run backend.step state labels) id = some next) :
    next.Released sequence ownerToken := by
  induction labels generalizing state with
  | nil => exact released next later
  | cons label rest ih =>
    exact ih (sound.step label) unclaimed.2 (bound.trans (ledger_step sound label).counted)
      (released_step sound unclaimed.1 bound released) later

/-- A finish of a released job changes nothing, and it returns the job while it is kept. -/
theorem finish_released (sound : backend.Sound state) {sequence : Nat}
    (released : ∀ m, backend.record state id = some m → m.Released sequence ownerToken)
    (revision : Nat) (result : JobResult) (delay : Time) :
    backend.Unchanged state (.finish id ownerToken revision result delay) ∧
      ∀ next, backend.record (backend.swept state) id = some next →
        next.sequence = sequence → backend.Sendable result →
        backend.reply state (.finish id ownerToken revision result delay) =
          .job (some next.snapshot) := by
  have swept : ∀ next, backend.record (backend.swept state) id = some next →
      next.Released sequence ownerToken := by
    intro next later
    obtain ⟨old, found, moves⟩ := swept_origin sound later
    exact moves.released (moves.unstarted fun _ _ impossible => by cases impossible)
      (released old found)
  constructor
  · refine (ownerCall_refused (.finish revision result delay) fun m found held => ?_).1
    exact absurd ((swept m found).free.symm.trans held.owned) Bool.false_ne_true
  · intro next later same sendable
    have settled := (swept next later).settled same
    cases backend with
    | memory => exact MemoryMachine.finish_again later settled revision result delay
    | redis => exact ScriptMachine.finish_again later settled revision sendable delay

theorem finish_settles (sound : backend.Sound state) {revision : Nat} {result : JobResult}
    {delay : Time} {snapshot : Option JobSnapshot}
    (replied : backend.reply state (.finish id ownerToken revision result delay) = .job snapshot) :
    ∃ m, backend.record (backend.step state
        (.call (.finish id ownerToken revision result delay))) id = some m ∧
      m.finishToken = some ownerToken ∧ m.state.owned = false := by
  cases backend with
  | memory => exact MemoryMachine.finish_settles sound replied
  | redis => exact ScriptMachine.finish_settles sound.1 replied

end Backend

/-! ## The transport retry -/

/-- One attempt to run a script: answered, run with its reply lost, or not run at all. -/
inductive Attempt where
  | answered
  | replyLost
  | unsent
  deriving DecidableEq

namespace ScriptMachine

/-- What an attempt does to the server. -/
def attempt (machine : ScriptMachine) (command : Command) : Attempt → ScriptMachine
  | .unsent => machine
  | _ => machine.step (.call command)

/--
`_mutate`: a first attempt without a reply is followed by a second, after the
steps of the other parties in between.  Without a second reply the command is
unconfirmed.
-/
def mutate (machine : ScriptMachine) (command : Command) (first second : Attempt)
    (between : List Label) : Option Reply × ScriptMachine :=
  if first = .answered then (some (machine.reply command), machine.step (.call command))
  else
    let later := Run.run step (machine.attempt command first) between
    (if second = .answered then some (later.reply command) else none, later.attempt command second)

end ScriptMachine

namespace Backend

/-- The record is not the one the token and the revision name. -/
def Fences (m : JobRecord) (ownerToken : String) (revision : Option Nat) : Prop :=
  m.ownerToken ≠ some ownerToken ∨ ∃ named, revision = some named ∧ m.revision ≠ named

/-- A worker whose token or revision is not current does not hold the job after the sweep. -/
theorem not_held_of_fences {backend : Backend} {state : backend.State} {id : TaskId}
    (sound : backend.Sound state) {ownerToken : String} {revision : Option Nat}
    (fences : ∀ m, backend.record state id = some m → Fences m ownerToken revision)
    (m : JobRecord) (found : backend.record (backend.swept state) id = some m) :
    ¬ m.HeldBy ownerToken revision := by
  intro held
  obtain ⟨old, earlier, moves⟩ := swept_origin sound found
  obtain ⟨_, token, current⟩ := moves.held (fun _ _ impossible => by cases impossible)
    (fun _ _ _ _ impossible => by cases impossible) held.owned
  rcases fences old earlier with other | ⟨named, names, stale⟩
  · exact other (token.symm.trans held.token)
  · exact stale (current.symm.trans (held.current named names))

/-- The call changes nothing: it is refused, or it returns the job its token has settled. -/
def Refused (backend : Backend) (state : backend.State) (id : TaskId) (ownerToken : String)
    (command : Command) : Prop :=
  backend.Unchanged state command ∧ ((∃ reason, backend.reply state command = .conflict reason) ∨
      ∃ m, backend.record (backend.swept state) id = some m ∧ m.finishToken = some ownerToken ∧
        backend.reply state command = .job (some m.snapshot))

/-- Whatever its token reports for the settled job changes nothing and returns the job. -/
def Settled (backend : Backend) (state : backend.State) (id : TaskId) (ownerToken : String)
    (sequence : Nat) : Prop :=
  ∀ revision result delay, backend.Unchanged state (.finish id ownerToken revision result delay) ∧
      ∀ m, backend.record (backend.swept state) id = some m → m.sequence = sequence →
        backend.Sendable result →
        backend.reply state (.finish id ownerToken revision result delay) = .job (some m.snapshot)

/-- The state after a finish. -/
def finished (backend : Backend) (state : backend.State) (id : TaskId) (ownerToken : String)
    (revision : Nat) (result : JobResult) (delay : Time) : backend.State :=
  backend.step state (.call (.finish id ownerToken revision result delay))

variable {backend : Backend} {state : backend.State} {id : TaskId} {ownerToken : String}
variable {revision : Nat} {result : JobResult} {delay : Time} {snapshot : Option JobSnapshot}

theorem settled_run (sound : backend.Sound state)
    (replied : backend.reply state (.finish id ownerToken revision result delay) = .job snapshot) :
    ∃ m, backend.record (backend.finished state id ownerToken revision result delay) id = some m ∧
      ∀ further, Run.Along backend.step (backend.Unclaimed id)
          (backend.finished state id ownerToken revision result delay) further →
        backend.Settled
          (Run.run backend.step (backend.finished state id ownerToken revision result delay)
            further) id ownerToken m.sequence := by
  obtain ⟨m, found, settled, free⟩ := finish_settles sound replied
  have sound' : backend.Sound (backend.finished state id ownerToken revision result delay) :=
    sound.step _
  refine ⟨m, found, fun further unclaimed => ?_⟩
  have released := released_run sound' unclaimed
    (sound'.wellFormed.counted id m found) fun r stored => by
      rw [Option.some.inj (stored.symm.trans found)]
      exact ⟨free, fun _ => settled⟩
  exact finish_released (sound_run sound' further) released

theorem Unchanged.tail {command : Command} (unchanged : backend.Unchanged state command) :
    ∃ tail : List Label, (tail = [] ∨ tail = [.call .sweep]) ∧
      backend.step state (.call command) = Run.run backend.step state tail := by
  rcases unchanged with swept | same
  · exact ⟨[.call .sweep], .inr rfl, swept⟩
  · exact ⟨[], .inl rfl, same⟩

/-- After the first attempt has settled the job the second adds at most a sweep. -/
theorem mutate_once (state : State .redis) (sound : Backend.redis.Sound state)
    (replied : Backend.redis.reply state (.finish id ownerToken revision result delay) =
      .job snapshot) {first : Attempt} (ran : first ≠ .unsent) (second : Attempt)
    {between : List Label}
    (unclaimed : Run.Along Backend.redis.step (Backend.redis.Unclaimed id)
      (Backend.redis.finished state id ownerToken revision result delay) between) :
    ∃ tail, (tail = [] ∨ tail = [.call .sweep]) ∧
      (ScriptMachine.mutate state (.finish id ownerToken revision result delay) first second
          between).2 =
        Run.run Backend.redis.step
          (Backend.redis.finished state id ownerToken revision result delay)
          ((if first = .answered then [] else between) ++ tail) := by
  obtain ⟨m, _, settled⟩ := settled_run sound replied
  obtain ⟨tail, short, same⟩ := (settled between unclaimed revision result delay).1.tail
  have joined := Run.run_append Backend.redis.step
    (Backend.redis.finished state id ownerToken revision result delay) between tail
  cases first with
  | unsent => exact absurd rfl ran
  | answered => exact ⟨[], .inl rfl, rfl⟩
  | replyLost =>
    cases second with
    | unsent => exact ⟨[], .inl rfl, (congrArg _ (List.append_nil between)).symm⟩
    | answered | replyLost => exact ⟨tail, short, same.trans joined.symm⟩

/-- A submission and its claim. -/
def claimedDelivery : List Label :=
  [.call (.admitJob
      { taskId := .submission 7 "a", kind := "mail", lane := "deferred", userId := 7,
        payload := .text "x", idempotencyKey := .given "a" } defaultQueuePolicy),
    .call (.claim .deferred "w")]

/-- The same, and the success the owner reports. -/
def settledDelivery : List Label :=
  claimedDelivery ++ [Label.call (.finish (.submission 7 "a") "w" 2 { outcome := .succeeded } 0)]

end Backend

end BobbyBotique.Queue
