import Mathlib.Algebra.BigOperators.Ring.Finset
import BobbyBotique.Queue.ScriptSlots

/-!
# The capacity of the Redis script

While the keys are in order the worker counter of a lane is the number of its
held jobs, and a job whose lease is kept holds the image permit.  A sweep
looks at every held job, since the workers are few enough for one batch, so a
claim that follows it takes a slot that nobody holds.
-/

namespace BobbyBotique.Queue

namespace Script

section Capacity

variable {fresh : Db → TaskId → Prop} {now : Time} {cause : Cause} {db after : Db}

/-- The worker counters show the held records. -/
def Counted (db : Db) : Prop := ∀ lane, slack db lane .running = 0

theorem Edit.counted (edit : Edit fresh now cause db after) (good : (ledger db).WellFormed)
    (frees : Frees fresh) (orderly : Orderly now db) (counted : Counted db) :
    Counted after := by
  intro lane
  have tracked : Tracked fresh now cause .running db := by
    constructor
    · exact frees db
    · intro _ each m found listed
      obtain ⟨old, stored, _, placed⟩ := (orderly.standing m.taskId).ready each listed
      cases found.symm.trans stored
      exact placed
    · nofun
    · nofun
    · nofun
  exact ((edit.balance lane .running).slack_eq good tracked).trans (counted lane)

/-- What holds of the keys of the leases through a run. -/
structure Manned (now : Time) (db : Db) : Prop where
  good : (ledger db).WellFormed
  orderly : Orderly now db
  counted : Counted db

theorem Edits.manned (edits : Edits fresh now cause db after) (frees : Frees fresh)
    (quiet : ∀ lane ownerToken, cause ≠ .call (.claim lane ownerToken))
    (still : ∀ id ownerToken revision, cause ≠ .call (.heartbeat id ownerToken revision))
    (manned : Manned now db) : Manned now after := by
  have kept := edits.keeps (fun u v good edit held => And.intro
    (edit.orderly good frees quiet still held.1)
    (edit.counted good frees held.1 held.2)) manned.good ⟨manned.orderly, manned.counted⟩
  exact ⟨edits.wellFormed manned.good, kept.1, kept.2⟩

/-- The number of held jobs of a lane is what the script reads. -/
theorem Counted.running (counted : Counted db) (lane : Lane) :
    db.counts lane .running = ((ledger db).ownedIn lane : Int) := by
  have same : contributed db lane .running = ((ledger db).ownedIn lane : Int) := by
    have each : ∀ id, db.jobs.weightAt (fun _ m => contribution m lane .running) id =
        (((ledger db).records.weightAt
          (fun _ m => if m.state.owned && decide (m.lane = lane) then 1 else 0) id : Nat) :
            Int) := by
      intro id
      simp only [Dict.weightAt, ledger_get?]
      cases db.jobs.get? id with
      | none => rfl
      | some m =>
        simp only [Option.elim_some, Option.map_some, contribution, eq_comm (a := lane)]
        by_cases there : m.lane = lane <;> cases m.state.owned <;> simp [there]
    let cover := db.jobs.keys.toFinset ∪ (ledger db).records.keys.toFinset
    unfold contributed Ledger.ownedIn Ledger.holding
    rw [db.jobs.total_eq_sum _ cover fun _ member =>
        Finset.mem_union_left _ (List.mem_toFinset.mpr member),
      (ledger db).records.total_eq_sum _ cover fun _ member =>
        Finset.mem_union_right _ (List.mem_toFinset.mpr member), Nat.cast_sum]
    exact Finset.sum_congr rfl fun id _ => each id
  have zero := counted lane
  unfold slack at zero
  omega

/-! ### Claims -/

/-- The loop of a claim leaves a job held only as it was. -/
theorem Passes.held {lane : Lane} (passes : Passes now lane db after) {id : TaskId}
    {m : ScriptJob} (later : after.jobs.get? id = some m) (owned : m.state.owned = true) :
    db.jobs.get? id = some m := by
  have ended : ∀ (db : Db) (m r : ScriptJob) (state : JobState) (reason : Option String)
      (safe : Bool), state.active = false →
      (Script.terminal db now m state reason safe).jobs.get? id = some r →
      r.state.owned = true → db.jobs.get? id = some r := by
    intro db m r state reason safe inactive later owned
    rw [terminal_jobs, Dict.get?_set] at later
    split at later
    · cases later
      have active := JobState.active_of_owned owned
      exact absurd (inactive.symm.trans active) Bool.false_ne_true
    · exact later
  induction passes with
  | refl => exact later
  | unlists _ _ ih => exact ih later
  | exhausted _ _ _ _ ih | payloadGone _ _ _ _ ih => exact ended _ _ _ _ _ _ rfl (ih later) owned

theorem Passes.manned {lane : Lane} (ownerToken : String) (passes : Passes now lane db after)
    (manned : Manned now db) : Manned now after := by
  have through : ∀ {db next : Db},
      Edit (fun _ _ => False) now (.call (.claim lane ownerToken)) db next →
      Manned now db → Orderly now next → Manned now next := by
    intro db next edit manned orderly
    exact ⟨(Edits.single edit).wellFormed manned.good, orderly,
      edit.counted manned.good (fun _ _ => False.elim) manned.orderly manned.counted⟩
  induction passes with
  | refl => exact manned
  | unlists moved _ ih =>
    apply ih
    apply through (.unlistsReady lane moved) manned
    exact manned.orderly.unlist rfl (fun _ _ listed => (of_atLane_del listed).1)
      (fun _ listed => listed) rfl
  | exhausted found queued spent _ ih =>
    apply ih
    apply through (.ends found (Moves.refl _) ⟨rfl, rfl⟩ _ (.exhausted queued spent)) manned
    exact manned.orderly.terminal manned.good found rfl rfl rfl rfl rfl rfl rfl _ _ _ rfl
  | payloadGone found queued gone _ ih =>
    apply ih
    apply through (.ends found (Moves.refl _) ⟨rfl, rfl⟩ _ (.payloadGone queued)) manned
    exact manned.orderly.terminal manned.good found rfl rfl rfl rfl rfl rfl rfl _ _ _ rfl

theorem Claims.manned {lane : Lane} {ownerToken : String} {result : Option ScriptJob}
    (claims : Claims db now lane ownerToken result after) (unheld : Unheld db ownerToken)
    (manned : Manned now db) : Manned now after := by
  cases claims with
  | nothing passes => exact passes.manned ownerToken manned
  | @starts middle m passes found listed queued left idle payload =>
    have before := passes.manned ownerToken manned
    have free : Unheld middle ownerToken := by
      intro id r stored owned
      exact unheld id r (passes.held stored owned) owned
    have edit : Edit (fun _ _ => False) now (.call (.claim lane ownerToken)) middle
        (Script.start middle now lane m ownerToken) :=
      .starts rfl found listed queued left idle payload
    exact ⟨(Edits.single edit).wellFormed before.good, before.orderly.start found listed idle free,
      edit.counted before.good (fun _ _ => False.elim) before.orderly before.counted⟩

theorem claims_claimed {lane : Lane} {ownerToken : String} {result : Option ScriptJob}
    (claims : Claims db now lane ownerToken result after) :
    Ledger.Claimed (ledger db) (ledger after) (result.map ScriptJob.toJobRecord) := by
  cases claims with
  | nothing passes =>
    constructor
    · intro next impossible
      cases impossible
    · intro id r _ later owned
      obtain ⟨m, stored, rfl⟩ := get?_of_ledger later
      exact ledger_of_get? (passes.held stored owned)
  | @starts middle m passes found listed queued left idle payload =>
    constructor
    · rintro next ⟨⟩
      apply ledger_of_get?
      rw [start_jobs, started_taskId, Dict.get?_set_self]
    · intro id r apart later owned
      obtain ⟨stored, held, rfl⟩ := get?_of_ledger later
      have other : id ≠ m.taskId := by
        intro same
        exact apart _ rfl (same.trans (started_taskId m now ownerToken).symm)
      rw [start_jobs, Dict.get?_set_ne _ _ other] at held
      exact ledger_of_get? (passes.held held owned)

/-- Whatever a claim hands out, its lane had a worker free. -/
theorem claim_room {lane : Lane} {ownerToken : String} {m : ScriptJob} (manned : Manned now db)
    (handed : (claim db now lane ownerToken).1 = some m) :
    (ledger db).ownedIn lane < laneWorkers lane := by
  unfold claim at handed
  split at handed
  · cases handed
  · next free =>
      have room := (not_or.mp free).2
      rw [manned.counted.running lane] at room
      omega

/-! ### The sweep -/

/-- No more jobs of a lane are held than it has workers. -/
def Worked (ledger : Ledger) : Prop := ∀ lane, ledger.ownedIn lane ≤ laneWorkers lane

/-- No held job has lost its lease. -/
def Live (now : Time) (db : Db) : Prop :=
  ∀ id m, db.jobs.get? id = some m → m.state.owned = true → m.leaseLost now = false

/-- The lease index fits into one batch. -/
theorem running_fits (orderly : Orderly now db) (worked : Worked (ledger db)) :
    dueCount db.running now ≤ 256 := by
  have listed : db.running.keys.length ≤
      (db.jobs.retain fun _ m => m.state.owned).keys.length := by
    apply Dict.keys_le_of_subset
    intro id score found
    obtain ⟨m, stored, owned⟩ :=
      (orderly.standing id).running (Option.isSome_iff_exists.mpr ⟨score, found⟩)
    exact ⟨m, (Dict.get?_retain_eq_some _ _ _ _).mpr ⟨stored, owned⟩⟩
  have counts : (db.jobs.retain fun _ m => m.state.owned).keys.length =
      (Lane.all.map (ledger db).ownedIn).sum := by
    rw [Dict.keys_retain_eq_total, Ledger.sum_ownedIn]
    apply Dict.total_congr
    intro id
    simp only [Dict.weightAt, ledger_get?]
    cases db.jobs.get? id with
    | none => rfl
    | some m =>
      simp only [Option.elim_some, Option.map_some]
      cases m.state.owned <;> cases m.lane <;> rfl
  have few : (Lane.all.map (ledger db).ownedIn).sum ≤ (Lane.all.map laneWorkers).sum :=
    List.sum_le_sum fun lane _ => worked lane
  have small : (Lane.all.map laneWorkers).sum ≤ 256 := by decide
  have due : dueCount db.running now ≤ db.running.keys.length := by
    unfold dueCount
    refine (List.length_filter_le _ _).trans (le_of_eq ?_)
    change (List.map _ db.running.table.entries).length =
      (List.map Sigma.fst db.running.table.entries).length
    rw [List.length_map, List.length_map]
  omega

/-- Nobody holds a job that the lease pass has looked at. -/
theorem runningStep_released (good : (ledger db).WellFormed) {id : TaskId} {next : ScriptJob}
    (later : (runningStep now db id).jobs.get? id = some next) : next.state.owned = false := by
  have ended : ∀ {m : ScriptJob} {state : JobState} {reason : Option String} {safe : Bool},
      m.taskId = id → state.owned = false →
      (Script.terminal db now m state reason safe).jobs.get? id = some next →
      next.state.owned = false := by
    intro m state reason safe same free later
    rw [terminal_jobs, same, Dict.get?_set_self] at later
    cases later
    exact free
  unfold runningStep at later
  split at later
  · next free =>
      rw [later] at free
      exact Bool.eq_false_iff.mpr (Option.filter_eq_none_iff.mp free next rfl)
  · next m selected =>
      obtain ⟨found, _⟩ := Option.filter_eq_some_iff.mp selected
      have same := named good found
      split_ifs at later
      · exact ended same rfl later
      · exact ended same rfl later
      · exact ended same rfl later
      · exact ended same rfl later
      · subst same
        have requeued : (requeueLost db m).jobs.get? m.taskId =
            some { m with toJobRecord := m.requeueLost } := Dict.get?_set_self _ _ _
        rw [requeued] at later
        cases later
        rfl

theorem runningPass_live (good : (ledger db).WellFormed) (indexed : Indexed db)
    (fits : dueCount db.running now ≤ 256)
    (edits : Edits (fun _ _ => False) now .sweep (runningPass db now) after) :
    Live now after := by
  let never : Db → TaskId → Prop := fun _ _ => False
  intro id m later owned
  cases lost : m.leaseLost now with
  | false => rfl
  | true =>
    -- A job that is held after the pass was held, with the same record, all along.
    have held : ∀ {first : Db}, (ledger first).WellFormed → Edits never now .sweep first after →
        ∃ old, first.jobs.get? id = some old ∧ old.toJobRecord = m.toJobRecord := by
      intro first _ edits
      have before := edits.progress.swept_held (ledger_of_get? later) owned
      obtain ⟨old, stored, same⟩ := get?_of_ledger before
      exact ⟨old, stored, same⟩
    have pass : Edits never now .sweep db (runningPass db now) := edits_runningPass good
    obtain ⟨old, stored, same⟩ := held good (pass.trans edits)
    have listed := (indexed id old stored).running (by rw [same]; exact owned)
    rw [same] at listed
    unfold JobRecord.leaseLost at lost
    cases beat : m.heartbeatAt with
    | none =>
      rw [beat] at lost
      cases lost
    | some last =>
      rw [beat] at lost listed
      have member := mem_batch fits listed (of_decide_eq_true lost)
      obtain ⟨first, rest, split⟩ := List.append_of_mem member
      have nodup := ZSet.rangeByScore_nodup db.running now 256
      rw [split] at nodup
      obtain ⟨nodupFirst, nodupRest, _⟩ := List.nodup_append.mp nodup
      have each : ∀ (ids : List TaskId), ids.Nodup → ∀ {start : Db}, (ledger start).WellFormed →
          Edits never now .sweep start (ids.foldl (runningStep now) start) := by
        intro ids nodup start good
        exact edits_batch (runningStep now) (fun _ _ => True)
          (fun _ id good _ => edits_runningStep good id) (fun _ _ _ _ _ => trivial) ids nodup
          start good fun _ _ => trivial
      have pre := each first nodupFirst good
      have step : Edits never now .sweep (first.foldl (runningStep now) db)
          (runningStep now (first.foldl (runningStep now) db) id) :=
        edits_runningStep (pre.wellFormed good) id
      have post := each rest (List.nodup_cons.mp nodupRest).2
        (step.wellFormed (pre.wellFormed good))
      have whole : runningPass db now = rest.foldl (runningStep now)
          (runningStep now (first.foldl (runningStep now) db) id) := by
        unfold runningPass
        rw [split, List.foldl_append, List.foldl_cons]
      rw [whole] at edits
      obtain ⟨next, there, also⟩ :=
        held (step.wellFormed (pre.wellFormed good)) (post.trans edits)
      have released := runningStep_released (pre.wellFormed good) there
      rw [also, owned] at released
      cases released

/-- A sweep leaves only jobs that their owners keep alive. -/
theorem sweep_manned (manned : Manned now db) (indexed : Indexed db)
    (worked : Worked (ledger db)) : Manned now (sweep db now) ∧ Live now (sweep db now) := by
  let never : Db → TaskId → Prop := fun _ _ => False
  have frees : Frees never := fun _ _ => False.elim
  have expires : Edits never now .sweep db (expire db now) := Edits.single (.expires rfl)
  have unpaid : Edits never now .sweep db (payloadPass (expire db now) now) :=
    expires.trans (edits_payloadPass (expires.wellFormed manned.good))
  have overdue : Edits never now .sweep db
      (deadlinePass (payloadPass (expire db now) now) now) :=
    unpaid.trans (edits_deadlinePass (unpaid.wellFormed manned.good))
  have held := overdue.manned frees (fun _ _ => nofun) (fun _ _ _ => nofun) manned
  have fits : dueCount (deadlinePass (payloadPass (expire db now) now) now).running now ≤ 256 := by
    apply running_fits held.orderly
    intro lane
    refine le_trans ?_ (worked lane)
    exact (overdue.progress.holding_le (fun _ _ => nofun) fun m next same => by rw [same.lane])
  have last : Edits never now .sweep
      (runningPass (deadlinePass (payloadPass (expire db now) now) now) now) (sweep db now) := by
    have pass : Edits never now .sweep _
        (runningPass (deadlinePass (payloadPass (expire db now) now) now) now) :=
      edits_runningPass held.good
    exact edits_lastPasses (pass.wellFormed held.good)
  constructor
  · exact (edits_sweep manned.good).manned frees (fun _ _ => nofun) (fun _ _ _ => nofun) manned
  · exact runningPass_live held.good (overdue.indexed manned.good indexed) fits last

end Capacity

section Commands

variable {now : Time} {db : Db}

/-- What holds of the keys after every command and at every time. -/
structure Staffed (now : Time) (db : Db) : Prop extends Manned now db where
  indexed : Indexed db
  staffed : (ledger db).Staffed

theorem Staffed.later (staffed : Staffed now db) {time : Time} (passed : now ≤ time) :
    Staffed time db :=
  { staffed with orderly := staffed.orderly.later passed }

/-- A phase that is no claim leaves no more jobs held. -/
theorem Staffed.phase {fresh : Db → TaskId → Prop} {cause : Cause} {after : Db}
    (staffed : Staffed now db) (edits : Edits fresh now cause db after) (manned : Manned now after)
    (quiet : ∀ lane ownerToken, cause ≠ .call (.claim lane ownerToken)) : Staffed now after :=
  ⟨manned, edits.indexed staffed.good staffed.indexed, edits.progress.staffed quiet staffed.staffed⟩

theorem Staffed.sweep (staffed : Staffed now db) :
    Staffed now (Script.sweep db now) ∧ Live now (Script.sweep db now) := by
  obtain ⟨manned, live⟩ := sweep_manned staffed.toManned staffed.indexed staffed.staffed.worked
  have edits : Edits (fun _ _ => False) now .sweep db (Script.sweep db now) :=
    edits_sweep staffed.good
  exact ⟨staffed.phase edits manned fun _ _ => nofun, live⟩

/-- While no lease is lost a free permit means that no image work is held. -/
theorem imageOwned_of_free (orderly : Orderly now db) (live : Live now db)
    (free : db.permit = none) : (ledger db).imageOwned = 0 := by
  apply Nat.le_zero.mp
  apply @Ledger.holding_le ⟨Dict.empty, 0⟩
  intro id next later owned image
  obtain ⟨m, stored, rfl⟩ := get?_of_ledger later
  obtain ⟨permit, held, _⟩ :=
    (orderly.standing id).permit m stored owned image (live id m stored owned)
  cases free.symm.trans held

/-- A claim needs a worker of the lane, and for image work the permit. -/
theorem claims_staffed {lane : Lane} {ownerToken : String} {result : Option ScriptJob} {after : Db}
    (claims : Claims db now lane ownerToken result after) (manned : Manned now db)
    (live : Live now db) (staffed : (ledger db).Staffed)
    (room : ∀ m, result = some m → (ledger db).ownedIn lane < laneWorkers lane) :
    (ledger after).Staffed := by
  cases claims with
  | nothing passes =>
    apply (claims_claimed (.nothing passes : Claims db now lane ownerToken none after)).staffed
      staffed
    · exact fun _ => nofun
    · exact fun _ => nofun
  | @starts middle m passes found listed queued left idle payload =>
    have passed : Claims db now lane ownerToken none middle := .nothing passes
    have fewer := (claims_claimed passed).staffed staffed (fun _ => nofun) (fun _ => nofun)
    have before := passes.manned ownerToken manned
    have kept : Live now middle := by
      intro id r stored owned
      exact live id r (passes.held stored owned) owned
    have placed : m.lane = lane := by
      obtain ⟨old, stored, _, placed⟩ := (before.orderly.standing m.taskId).ready lane listed
      cases found.symm.trans stored
      exact placed
    have last : Claims middle now lane ownerToken _ _ :=
      .starts (.refl middle) found listed queued left idle payload
    apply (claims_claimed last).staffed fewer
    · rintro next ⟨⟩
      rw [(started_fields now m ownerToken).1, placed]
      exact (claims_claimed passed).holding_le.trans_lt (room _ rfl)
    · rintro next ⟨⟩ works
      rw [started_imageWork] at works
      exact imageOwned_of_free before.orderly kept (idle works)

theorem Staffed.claim (staffed : Staffed now db) (live : Live now db) (lane : Lane)
    {ownerToken : String} (unheld : Unheld db ownerToken) :
    Staffed now (Script.claim db now lane ownerToken).2 := by
  have spec := @claim_spec now db staffed.good lane ownerToken
  have edits : Edits (fun _ _ => False) now (.call (.claim lane ownerToken)) db
      (Script.claim db now lane ownerToken).2 := edits_claims spec
  exact ⟨spec.manned unheld staffed.toManned, edits.indexed staffed.good staffed.indexed,
    claims_staffed spec staffed.toManned live staffed.staffed
      fun _ handed => claim_room staffed.toManned handed⟩

theorem Staffed.heartbeat (staffed : Staffed now db) (live : Live now db) (taskId : TaskId)
    (ownerToken : String) (revision : Nat) :
    Staffed now (Script.heartbeat db now taskId ownerToken revision).2 := by
  have edits : Edits (fun _ _ => False) now (.call (.heartbeat taskId ownerToken revision)) db
      (Script.heartbeat db now taskId ownerToken revision).2 :=
    edits_heartbeat staffed.good taskId ownerToken revision
  refine staffed.phase edits ?_ fun _ _ => nofun
  unfold Script.heartbeat
  split
  · exact staffed.toManned
  · next m owner =>
      obtain ⟨found, owned⟩ := owned?_eq_some.mp owner
      have same := named staffed.good found
      subst same
      have edit : Edit (fun _ _ => False) now (.call (.heartbeat m.taskId ownerToken revision)) db
          _ := .beats rfl found owned
      exact ⟨(Edits.single edit).wellFormed staffed.good,
        staffed.orderly.beat found owned.owned owned.token fun _ =>
          live m.taskId m found owned.owned,
        edit.counted staffed.good (fun _ _ => False.elim) staffed.orderly staffed.counted⟩

/-- The token of a claim is new. -/
def NewToken (db : Db) : Command → Prop
  | .claim _ ownerToken => Unheld db ownerToken
  | _ => True

theorem Staffed.act (staffed : Staffed now db) (live : Live now db) (command : Command)
    (free : ∀ id, Accepts db command id → Free db id)
    (token : NewToken db command) : Staffed now (Script.act now db command).2 := by
  have edits : Edits Free now (.call command) db (Script.act now db command).2 := edits_act staffed.good command free
  have plain : (∀ lane ownerToken, Cause.call command ≠ .call (.claim lane ownerToken)) →
      (∀ id ownerToken revision, Cause.call command ≠ .call (.heartbeat id ownerToken revision)) →
      Staffed now (Script.act now db command).2 := by
    intro quiet still
    exact staffed.phase edits
      (edits.manned (fun _ _ free => free) quiet still staffed.toManned) quiet
  cases command with
  | claim lane ownerToken => exact staffed.claim live lane token
  | heartbeat taskId ownerToken revision => exact staffed.heartbeat live taskId ownerToken revision
  | _ => exact plain (fun _ _ => nofun) (fun _ _ _ => nofun)

theorem Staffed.exec (staffed : Staffed now db) (command : Command)
    (spares : Spares now db command) (token : NewToken db command) :
    Staffed now (Script.exec now db command).2 := by
  rcases exec_cases now db command with ⟨reply, same⟩ | ⟨sent, same⟩
  · rw [same]
    exact staffed
  · rw [same]
    obtain ⟨swept, live⟩ := staffed.sweep
    refine swept.act live command (spares sent) ?_
    have edits : Edits (fun _ _ => False) now .sweep db (Script.sweep db now) :=
      edits_sweep staffed.good
    cases command with
    | claim lane ownerToken =>
      intro id m found owned
      have before := edits.progress.swept_held (ledger_of_get? found) owned
      obtain ⟨old, stored, same⟩ := get?_of_ledger before
      rw [← same] at owned ⊢
      exact token id old stored owned
    | _ => trivial

end Commands

end Script

end BobbyBotique.Queue
