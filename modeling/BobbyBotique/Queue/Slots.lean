import BobbyBotique.Queue.MemoryCommands
import Mathlib.Algebra.GroupWithZero.Nat

/-!
# Worker slots

How many jobs are held at once, for the ledger of either store and for the
local store.  Only a claim takes a job, and it takes one: the number of held
jobs of any kind grows by one at most, and only in a claim that finds room.
-/

namespace BobbyBotique.Queue

/-- No transition makes the metadata of a job run out. -/
theorem Move.outlived {now : Time} {cause : Cause} {m next : JobRecord}
    (move : Move now cause m next) (gone : next.outlived now = true) :
    m.outlived now = true := by
  cases move with
  | ending =>
    simp [JobRecord.outlived, JobRecord.terminal, metadataRetention] at gone
  | start budget =>
    rcases m.extendDaily_cases now budget with same | same <;> rw [same] at gone <;> exact gone
  | _ => exact gone

namespace Moves

variable {now : Time} {cause : Cause} {m next : JobRecord}

/-- Only a claim leaves a job held that nobody held. -/
theorem untaken (quiet : ∀ lane ownerToken, cause ≠ .call (.claim lane ownerToken))
    (moves : Moves now cause m next) (owned : next.state.owned = true) :
    m.state.owned = true := by
  induction moves with
  | refl => exact owned
  | @tail mid next _ last ih =>
    rcases last.taken owned with held | started
    · exact ih held
    · have same := (single last).unstarted quiet
      omega

/-- A sweep does nothing to a job that it leaves held. -/
theorem sweep_held (moves : Moves now .sweep m next) (owned : next.state.owned = true) :
    next = m := by
  cases moves with
  | refl => rfl
  | tail _ last =>
    cases last with
    | ending how =>
      have active := JobState.active_of_owned owned
      exact absurd (how.active_ends.2.symm.trans active) Bool.false_ne_true
    | payloadDropped done =>
      exact absurd (done.symm.trans (JobState.active_of_owned owned)) Bool.false_ne_true
    | requeueLost | promote => cases owned

/-- No transition makes the metadata of a job run out. -/
theorem outlived (moves : Moves now cause m next) (gone : next.outlived now = true) :
    m.outlived now = true := by
  induction moves with
  | refl => exact gone
  | tail _ last ih => exact ih (last.outlived gone)

end Moves

namespace Ledger

/-- The number of held jobs of a kind. -/
def holding (ledger : Ledger) (kind : JobRecord → Bool) : Nat :=
  ledger.records.total fun _ m => if m.state.owned && kind m then 1 else 0

/-- The number of held jobs of a lane. -/
def ownedIn (ledger : Ledger) (lane : Lane) : Nat :=
  ledger.holding fun m => decide (m.lane = lane)

/-- The number of held jobs that do image work. -/
def imageOwned (ledger : Ledger) : Nat := ledger.holding fun m => m.imageWork

section Holding

variable {before after : Ledger} {kind : JobRecord → Bool}

/-- When every held job of a kind was one before there are no more of them. -/
theorem holding_le
    (untaken : ∀ id next, after.records.get? id = some next → next.state.owned = true →
      kind next = true →
      ∃ m, before.records.get? id = some m ∧ m.state.owned = true ∧ kind m = true) :
    after.holding kind ≤ before.holding kind := by
  apply Dict.total_le_total
  intro id
  simp only [Dict.weightAt]
  cases later : after.records.get? id with
  | none => exact Nat.zero_le _
  | some next =>
    cases counted : next.state.owned && kind next with
    | false =>
      rw [Option.elim_some, counted]
      exact Nat.zero_le _
    | true =>
      obtain ⟨owned, same⟩ := Bool.and_eq_true_iff.mp counted
      obtain ⟨m, found, held, same'⟩ := untaken id next later owned same
      rw [Option.elim_some, counted, found, Option.elim_some, held, same']
      exact le_rfl

/-- When every held job but one was held before there is at most one more. -/
theorem holding_le_one_more {id : TaskId} {next : JobRecord}
    (later : after.records.get? id = some next)
    (untaken : ∀ other r, other ≠ id → after.records.get? other = some r →
      r.state.owned = true → before.records.get? other = some r) :
    after.holding kind ≤ before.holding kind + if kind next then 1 else 0 := by
  have removed : Ledger.holding ⟨after.records.del id, after.sequence⟩ kind ≤
      before.holding kind := by
    apply holding_le
    intro other r found owned same
    have apart : other ≠ id := by
      rintro rfl
      rw [Dict.get?_del_self] at found
      cases found
    rw [Dict.get?_del_ne _ apart] at found
    exact ⟨r, untaken other r apart found owned, owned, same⟩
  have total := after.records.total_del
    (fun _ m => if m.state.owned && kind m then 1 else 0) id
  simp only [Dict.weightAt, later, Option.elim_some] at total
  change _ + _ = after.holding kind at total
  change (after.records.del id).total _ ≤ _ at removed
  have one : (if next.state.owned && kind next then 1 else 0) ≤ if kind next then 1 else 0 := by
    cases next.state.owned <;> cases kind next <;> decide
  omega

/-- What a claim makes of the held jobs: none is new but the one it hands out. -/
structure Claimed (before after : Ledger) (claim : Option JobRecord) : Prop where
  started : ∀ next, claim = some next → after.records.get? next.taskId = some next
  untaken : ∀ id r, (∀ next, claim = some next → id ≠ next.taskId) →
    after.records.get? id = some r → r.state.owned = true → before.records.get? id = some r

/-- There are no more held jobs of a kind unless the claim hands out one of them. -/
theorem Claimed.holding_le {claim : Option JobRecord} (claimed : Claimed before after claim) :
    after.holding kind ≤
      before.holding kind + claim.elim 0 fun next => if kind next then 1 else 0 := by
  cases claim with
  | none =>
    apply Ledger.holding_le
    intro id next later owned same
    refine ⟨next, claimed.untaken id next ?_ later owned, owned, same⟩
    intro next impossible
    cases impossible
  | some next =>
    refine holding_le_one_more (claimed.started next rfl) fun id r apart later owned => ?_
    refine claimed.untaken id r ?_ later owned
    rintro _ ⟨⟩
    exact apart

end Holding

section Steps

variable {fresh : Prop} {now : Time} {cause : Cause} {before after : Ledger}
  {kind : JobRecord → Bool}

/-- A phase that is no claim takes nothing. -/
theorem Progress.untaken (progress : Progress fresh now cause before after)
    (quiet : ∀ lane ownerToken, cause ≠ .call (.claim lane ownerToken)) {id : TaskId}
    {next : JobRecord} (later : after.records.get? id = some next)
    (owned : next.state.owned = true) :
    ∃ m, before.records.get? id = some m ∧ Moves now cause m next ∧ m.state.owned = true := by
  have fate := progress.fate id
  rw [later] at fate
  generalize earlier : before.records.get? id = found at fate
  cases fate with
  | @kept m _ moves => exact ⟨m, rfl, moves, moves.untaken quiet owned⟩
  | born admission _ _ _ _ moves =>
    have waits := moves.untaken admission.not_claim owned
    rw [JobState.owned_eq_false_of_waiting admission.waiting] at waits
    cases waits

theorem Progress.holding_le (progress : Progress fresh now cause before after)
    (quiet : ∀ lane ownerToken, cause ≠ .call (.claim lane ownerToken))
    (stable : ∀ m next, SameJob m next → kind next = kind m) :
    after.holding kind ≤ before.holding kind := by
  apply Ledger.holding_le
  intro id next later owned same
  obtain ⟨m, found, moves, held⟩ := progress.untaken quiet later owned
  exact ⟨m, found, held, (stable m next moves.sameJob).symm.trans same⟩

/-- The sweep leaves a job held only as it was. -/
theorem Progress.swept_held (progress : Progress fresh now .sweep before after) {id : TaskId}
    {m : JobRecord} (later : after.records.get? id = some m) (owned : m.state.owned = true) :
    before.records.get? id = some m := by
  obtain ⟨old, found, moves⟩ := progress.sweep_origin later
  rw [moves.sweep_held owned]
  exact found

end Steps

/-! ## The capacity of the workers -/

/-- No lane has more held jobs than workers. -/
def Worked (ledger : Ledger) : Prop := ∀ lane, ledger.ownedIn lane ≤ laneWorkers lane

/-- The capacity of the workers is kept. -/
structure Staffed (ledger : Ledger) : Prop where
  worked : ledger.Worked
  image : ledger.imageOwned ≤ 1

/-- A phase that is no claim leaves no more jobs held. -/
theorem Progress.staffed {fresh : Prop} {now : Time} {cause : Cause} {before after : Ledger}
    (progress : Progress fresh now cause before after)
    (quiet : ∀ lane ownerToken, cause ≠ .call (.claim lane ownerToken))
    (staffed : before.Staffed) : after.Staffed := by
  constructor
  · intro lane
    exact (progress.holding_le quiet fun m next same => by rw [same.lane]).trans
      (staffed.worked lane)
  · exact (progress.holding_le quiet fun m next same => by rw [same.imageWork]).trans
      staffed.image

/-- A claim keeps the capacity when what it hands out finds room. -/
theorem Claimed.staffed {before after : Ledger} {claim : Option JobRecord}
    (claimed : Claimed before after claim) (staffed : before.Staffed)
    (room : ∀ next, claim = some next → before.ownedIn next.lane < laneWorkers next.lane)
    (idle : ∀ next, claim = some next → next.imageWork = true → before.imageOwned = 0) :
    after.Staffed := by
  constructor
  · intro lane
    refine (@Claimed.holding_le before after (fun m => decide (m.lane = lane)) claim
      claimed).trans ?_
    have worked : before.holding (fun m => decide (m.lane = lane)) ≤ _ := staffed.worked lane
    cases handed : claim with
    | none => exact worked
    | some next =>
      rw [Option.elim_some]
      by_cases same : next.lane = lane
      · have free : before.holding (fun m => decide (m.lane = next.lane)) < _ :=
          room next handed
        rw [same] at free
        rw [if_pos (decide_eq_true same)]
        exact free
      · rw [if_neg (by rw [decide_eq_false same]; exact Bool.false_ne_true)]
        exact worked
  · refine claimed.holding_le.trans ?_
    cases handed : claim with
    | none => exact staffed.image
    | some next =>
      rw [Option.elim_some]
      by_cases works : next.imageWork = true
      · have free : before.holding (fun m => m.imageWork) = 0 := idle next handed works
        rw [if_pos works, free]
      · rw [if_neg works]
        exact staffed.image

/-- The held jobs of some lanes together. -/
theorem sum_ownedIn (ledger : Ledger) (lanes : List Lane) :
    (lanes.map ledger.ownedIn).sum = ledger.records.total fun _ m =>
      (lanes.map fun lane =>
        (if m.state.owned && decide (m.lane = lane) then 1 else 0 : Nat)).sum := by
  induction lanes with
  | nil => simp [Dict.total]
  | cons lane rest ih =>
    rw [List.map_cons, List.sum_cons, ih]
    exact (ledger.records.total_add
      (fun _ m => (if m.state.owned && decide (m.lane = lane) then 1 else 0 : Nat))
      fun _ m => (rest.map fun lane =>
        (if m.state.owned && decide (m.lane = lane) then 1 else 0 : Nat)).sum).symm

/-! ## The life of a job over one step -/

/--
What a step may do to a record.  A job is named by its admission: a record
with another sequence under the same id is another job.  `fresh` is the promise
that no admission takes the id of a record.
-/
structure Lasts (fresh : Prop) (now : Time) (label : Label) (before after : Ledger) : Prop where
  absorbs : ∀ id m next, before.records.get? id = some m → after.records.get? id = some next →
    next.sequence = m.sequence → m.state.active = false → next.state = m.state
  rises : ∀ id m next, before.records.get? id = some m → after.records.get? id = some next →
    next.sequence = m.sequence → next.state ≠ m.state → m.revision < next.revision
  stays : fresh → ∀ id m, before.records.get? id = some m →
    (∃ next, after.records.get? id = some next ∧ next.sequence = m.sequence) ∨
      (after.records.get? id = none ∧ ∃ userId members, label = .call (.eraseUser userId members)) ∨
      m.outlived now = true

/-- A step that overwrites no record removes one by erasure or for its age only. -/
theorem Step.lasts {fresh : Prop} {now : Time} {label : Label} {before after : Ledger}
    (step : Step fresh now label before after) (good : before.WellFormed) :
    Lasts fresh now label before after := by
  cases label with
  | advance elapsed =>
    cases step
    constructor
    · rintro id m next found later _ _
      cases found.symm.trans later
      rfl
    · rintro id m next found later _ changed
      cases found.symm.trans later
      exact absurd rfl changed
    · intro _ id m found
      exact .inl ⟨m, found, rfl⟩
  | call command =>
    obtain ⟨swept, sweep, own⟩ := step
    have through : ∀ id m next, before.records.get? id = some m →
        after.records.get? id = some next → next.sequence = m.sequence →
        ∃ mid, Moves now .sweep m mid ∧ Moves now (.call command) mid next := by
      intro id m next found later same
      have bound := good.counted id m found
      obtain ⟨mid, between, second⟩ := own.origin later
        (same ▸ bound.trans sweep.counted)
      have first := sweep.moves_of_same good found between
        (second.sameJob.sequence ▸ same)
      exact ⟨mid, first, second⟩
    constructor
    · intro id m next found later same ended
      obtain ⟨mid, first, second⟩ := through id m next found later same
      have swept := first.absorbs ended
      exact (second.absorbs (swept ▸ ended)).trans swept
    · intro id m next found later same changed
      obtain ⟨mid, first, second⟩ := through id m next found later same
      by_cases swept : mid.state = m.state
      · exact first.revision.1.trans_lt (second.revision.2 (swept ▸ changed))
      · exact (first.revision.2 swept).trans_le second.revision.1
    · intro holds id m found
      have fate := sweep.fate id
      rw [found] at fate
      generalize between : swept.records.get? id = middle at fate
      cases fate with
      | @kept _ mid first =>
        have later := own.fate id
        rw [between] at later
        generalize ends : after.records.get? id = final at later
        cases later with
        | @kept _ next second =>
          exact .inl ⟨next, rfl, second.sameJob.sequence.trans first.sameJob.sequence⟩
        | expired sweeps => cases sweeps
        | erased userId members erases =>
          cases erases
          exact .inr (.inl ⟨rfl, userId, members, rfl⟩)
        | born _ clear => cases clear holds
      | expired _ moves outlived => exact .inr (.inr (moves.outlived outlived))
      | erased _ _ erases => cases erases
      | born admission => exact absurd rfl admission.not_sweep

end Ledger

/-! ## The local store -/

namespace MemoryQueueStore

variable {now : Time} {s t : MemoryQueueStore}

/-- The loop of a claim leaves a job held only as it was. -/
theorem Passes.held (passes : Passes now s t) {id : TaskId} {m : MemoryJob}
    (later : t.jobs.get? id = some m) (owned : m.state.owned = true) :
    s.jobs.get? id = some m := by
  have ended : ∀ (s : MemoryQueueStore) (m r : MemoryJob) (state : JobState)
      (reason : Option String) (safeRetry : Bool), state.active = false →
      (s.terminal now m state reason safeRetry).jobs.get? id = some r →
      r.state.owned = true → s.jobs.get? id = some r := by
    intro s m r state reason safeRetry inactive later owned
    rw [terminal_jobs, Dict.get?_set] at later
    split at later
    · cases later
      have active := JobState.active_of_owned owned
      exact absurd (inactive.symm.trans active) Bool.false_ne_true
    · exact later
  induction passes with
  | refl => exact later
  | exhausted _ _ _ _ ih | payloadGone _ _ _ _ ih => exact ended _ _ _ _ _ _ rfl (ih later) owned

theorem claims_claimed {lane : Lane} {ownerToken : String} {busy : Bool}
    {result : Option MemoryJob} (claims : Claims s now lane ownerToken busy result t) :
    Ledger.Claimed s.ledger t.ledger (result.map MemoryJob.toJobRecord) := by
  cases claims with
  | nothing passes =>
    constructor
    · intro next impossible
      cases impossible
    · intro id r _ later owned
      obtain ⟨m, stored, rfl⟩ := get?_of_ledger later
      exact ledger_of_get? (passes.held stored owned)
  | @starts u m passes found _ queued left _ _ =>
    constructor
    · rintro next ⟨⟩
      exact ledger_of_get? (u.jobs.get?_set_self _ _)
    · intro id r apart later owned
      obtain ⟨stored, held, rfl⟩ := get?_of_ledger later
      have elsewhere : (u.put (started m now ownerToken)).jobs.get? id = u.jobs.get? id :=
        Dict.get?_set_ne _ _ (apart _ rfl)
      exact ledger_of_get? (passes.held (elsewhere ▸ held) owned)

theorem ownedJobs_eq (s : MemoryQueueStore) (lane : Lane) :
    s.ledger.ownedIn lane = s.ownedJobs lane := by
  have same : ∀ id, (s.ledger.records.weightAt
      (fun _ m => if m.state.owned && decide (m.lane = lane) then 1 else 0) id : Nat) =
      s.jobs.weightAt (fun _ m => if m.lane = lane ∧ m.state.owned then 1 else 0) id := by
    intro id
    simp only [Dict.weightAt, ledger_get?]
    cases s.jobs.get? id with
    | none => rfl
    | some m => simp [and_comm]
  exact Dict.total_congr same

/-- No held job does image work when the store is not busy with it. -/
theorem imageOwned_of_idle (idle : s.imageBusy = false) : s.ledger.imageOwned = 0 := by
  apply Nat.le_zero.mp
  apply @Ledger.holding_le ⟨Dict.empty, 0⟩
  intro id next later owned image
  obtain ⟨m, stored, rfl⟩ := get?_of_ledger later
  have listed := (s.jobs.mem_values_iff m).mpr ⟨id, stored⟩
  have busy : s.imageBusy = true :=
    List.any_eq_true.mpr ⟨m, listed, Bool.and_eq_true_iff.mpr ⟨owned, image⟩⟩
  exact absurd (idle.symm.trans busy) Bool.false_ne_true

theorem started_lane (m : MemoryJob) (now : Time) (ownerToken : String) :
    (started m now ownerToken).lane = m.lane := by
  rcases m.extendDaily_cases now (executionBudget m.toJobRecord) with same | same <;>
    simp only [started, same, JobRecord.start]

theorem started_imageWork (m : MemoryJob) (now : Time) (ownerToken : String) :
    (started m now ownerToken).imageWork = m.imageWork := by
  rcases m.extendDaily_cases now (executionBudget m.toJobRecord) with same | same <;>
    simp only [started, same, JobRecord.start]

/-- A claim needs a worker of the lane, and for image work no other such job. -/
theorem claim_staffed (good : s.ledger.WellFormed) (staffed : s.ledger.Staffed) (lane : Lane)
    (ownerToken : String) : (s.claim now lane ownerToken).2.ledger.Staffed := by
  have spec := @claim_spec now s good lane ownerToken
  have room := @claim_room now s lane ownerToken
  generalize s.claim now lane ownerToken = outcome at spec room ⊢
  obtain ⟨result, after⟩ := outcome
  dsimp only at spec room ⊢
  apply (claims_claimed spec).staffed staffed
  · cases spec with
    | nothing passes =>
      rintro next ⟨⟩
    | @starts t m passes found placed queued left idle payload =>
      rintro next ⟨⟩
      rw [started_lane, placed, ownedJobs_eq]
      exact room rfl
  · cases spec with
    | nothing passes =>
      rintro next ⟨⟩
    | @starts t m passes found placed queued left idle payload =>
      rintro next ⟨⟩ works
      rw [started_imageWork] at works
      exact imageOwned_of_idle (idle works)

theorem exec_staffed (good : s.ledger.WellFormed) (staffed : s.ledger.Staffed)
    (command : Command) : (s.exec now command).2.ledger.Staffed := by
  have sweep : Edits True now .sweep s (s.swept now command) := edits_swept good command
  have clean := sweep.wellFormed good
  have kept : (s.swept now command).ledger.Staffed :=
    (sweep.progress good).staffed (fun _ _ => nofun) staffed
  have act := (@edits_act now _ clean command).progress clean
  unfold exec
  cases command with
  | claim lane ownerToken => exact claim_staffed clean kept lane ownerToken
  | _ => exact act.staffed (fun _ _ => nofun) kept

end MemoryQueueStore

end BobbyBotique.Queue
