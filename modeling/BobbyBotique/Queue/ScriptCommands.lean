import BobbyBotique.Queue.ScriptEdits

/-!
# The actions of the Redis script

Every action of the script is the sweep followed by elementary changes of its
own.  The sweep is five passes, each over a batch of ids that an index lists;
an id of the batch is still listed when its turn comes.
-/

namespace BobbyBotique.Queue

/-- A task id of a batch has a score within the bound. -/
theorem ZSet.mem_rangeByScore {set : ZSet} {bound : Int} {limit : Nat} {id : TaskId}
    (member : id ∈ set.rangeByScore bound limit) :
    ∃ score, set.get? id = some score ∧ score ≤ bound := by
  obtain ⟨item, taken, rfl⟩ := List.mem_map.mp member
  have listed := (List.mem_insertionSort _).mp (List.mem_of_mem_take taken)
  obtain ⟨stored, within⟩ := List.mem_filter.mp listed
  exact ⟨item.2, (Dict.mem_items_iff set item.1 item.2).mp stored, of_decide_eq_true within⟩

theorem ZSet.items_nodup (set : ZSet) : (set.items.map Prod.fst).Nodup := by
  have keys : set.items.map Prod.fst = set.keys := by
    change List.map _ (List.map _ _) = List.map _ _
    rw [List.map_map]
    rfl
  rw [keys]
  exact set.keys_nodup

theorem ZSet.rangeByScore_nodup (set : ZSet) (bound : Int) (limit : Nat) :
    (set.rangeByScore bound limit).Nodup := by
  have sorted : ((set.items.filter fun item => item.2 ≤ bound).map Prod.fst).Nodup :=
    set.items_nodup.sublist (List.filter_sublist.map Prod.fst)
  have permuted := ((List.perm_insertionSort (fun first second : TaskId × Int =>
    first.2 ≤ second.2) (set.items.filter fun item => item.2 ≤ bound)).map Prod.fst).nodup_iff.mpr
    sorted
  exact permuted.sublist ((List.take_sublist _ _).map Prod.fst)

theorem ZSet.mem_range {set : ZSet} {limit : Nat} {id : TaskId} (member : id ∈ set.range limit) :
    set.contains id = true := by
  obtain ⟨item, taken, rfl⟩ := List.mem_map.mp member
  have listed := (List.mem_insertionSort _).mp (List.mem_of_mem_take taken)
  rw [Dict.contains, (Dict.mem_items_iff set item.1 item.2).mp listed]
  rfl

theorem ZSet.range_nodup (set : ZSet) (limit : Nat) : (set.range limit).Nodup := by
  have permuted := ((List.perm_insertionSort (fun first second : TaskId × Int =>
    first.2 ≤ second.2) set.items).map Prod.fst).nodup_iff.mpr set.items_nodup
  exact permuted.sublist ((List.take_sublist _ _).map Prod.fst)

namespace Script

section Phases

variable {fresh : Db → TaskId → Prop} {now : Time} {cause : Cause} {db after : Db}

/-! ## The sweep -/

/-- A batch is handled id by id, each with what holds of it until its turn. -/
theorem edits_batch (step : Db → TaskId → Db) (holds : Db → TaskId → Prop)
    (each : ∀ db id, (ledger db).WellFormed → holds db id → Edits fresh now cause db (step db id))
    (others : ∀ db id other, other ≠ id → holds db other → holds (step db id) other)
    (ids : List TaskId) (nodup : ids.Nodup) (db : Db) (good : (ledger db).WellFormed)
    (initial : ∀ id ∈ ids, holds db id) : Edits fresh now cause db (ids.foldl step db) := by
  induction ids generalizing db with
  | nil => exact Edits.refl db
  | cons id rest ih =>
    obtain ⟨absent, nodup⟩ := List.nodup_cons.mp nodup
    have first := each db id good (initial id List.mem_cons_self)
    refine first.trans (ih nodup _ (first.wellFormed good) fun other member => ?_)
    refine others db id other (fun same => absent (same ▸ member)) ?_
    exact initial other (List.mem_cons_of_mem _ member)

theorem edits_payloadStep (good : (ledger db).WellFormed) (id : TaskId) :
    Edits fresh now .sweep db (payloadStep now db id) := by
  unfold payloadStep
  split
  · next gone => exact Edits.single (.unlistsPayload gone)
  · next m found =>
      have same := named good found
      subst same
      split
      · next active => exact Edits.single (.endsUnpaid rfl found active)
      · next inactive => exact Edits.single (.drops rfl found (Bool.eq_false_iff.mpr inactive))

theorem edits_deadlineStep (good : (ledger db).WellFormed) (id : TaskId) :
    Edits fresh now .sweep db (deadlineStep now db id) := by
  unfold deadlineStep
  split
  · next inactive =>
      refine Edits.single (.unlistsDeadline fun m found => ?_)
      rw [found] at inactive
      exact Bool.eq_false_iff.mpr (Option.filter_eq_none_iff.mp inactive m rfl)
  · next m selected =>
      obtain ⟨found, active⟩ := Option.filter_eq_some_iff.mp selected
      have same := named good found
      subst same
      exact Edits.single (.ends found (Moves.refl _) ⟨rfl, rfl⟩ _ (.overdue active))

theorem edits_runningStep (good : (ledger db).WellFormed) (id : TaskId) :
    Edits fresh now .sweep db (runningStep now db id) := by
  unfold runningStep
  split
  · next free =>
      refine Edits.single (.unlistsRunning fun m found => ?_)
      rw [found] at free
      exact Bool.eq_false_iff.mpr (Option.filter_eq_none_iff.mp free m rfl)
  · next m selected =>
      obtain ⟨found, owned⟩ := Option.filter_eq_some_iff.mp selected
      have same := named good found
      subst same
      split
      · next effectful =>
          exact Edits.single (.ends found (Moves.refl _) ⟨rfl, rfl⟩ _ (.lostEffect owned effectful))
      · next harmless =>
          have safe := Bool.eq_false_iff.mpr harmless
          split
          · next requested =>
              exact Edits.single
                (.ends found (Moves.refl _) ⟨rfl, rfl⟩ _ (.lostCancelled requested safe))
          · next unrequested =>
              have running := JobState.running_of_owned owned unrequested
              split
              · next spent =>
                  exact Edits.single
                    (.ends found (Moves.refl _) ⟨rfl, rfl⟩ _ (.lostExhausted running safe spent))
              · next left =>
                  split
                  · exact Edits.single
                      (.ends found (Moves.refl _) ⟨rfl, rfl⟩ _ (.lostLate running safe))
                  · exact Edits.single
                      (.requeuesLost rfl found running safe (Nat.lt_of_not_ge left))

theorem edits_delayedStep (good : (ledger db).WellFormed) (lane : Lane) (id : TaskId)
    (listed : (db.delayed lane).contains id = true) :
    Edits fresh now .sweep db (delayedStep lane db id) := by
  unfold delayedStep
  dsimp only
  split
  · next moved =>
      refine Edits.single (.unlistsDelayed lane fun m found => ?_)
      rw [found] at moved
      simpa using Option.filter_eq_none_iff.mp moved m rfl
  · next m selected =>
      obtain ⟨found, delayed⟩ := Option.filter_eq_some_iff.mp selected
      have same := named good found
      subst same
      exact Edits.single (.promotes lane rfl found (of_decide_eq_true delayed) listed)

theorem contains_del_ne {set : ZSet} {id other : TaskId} (ne : other ≠ id)
    (listed : set.contains other = true) : (set.del id).contains other = true := by
  rw [Dict.contains, Dict.get?_del_ne _ ne]
  exact listed

theorem atLane_self (sets : Lane → ZSet) (lane : Lane) (change : ZSet → ZSet) :
    atLane sets lane change lane = change (sets lane) := if_pos rfl

theorem delayedStep_delayed (lane : Lane) (db : Db) (id : TaskId) :
    (delayedStep lane db id).delayed = atLane db.delayed lane fun set => set.del id := by
  unfold delayedStep
  dsimp only
  split <;> rfl

theorem metadataStep_expiryMetadata (db : Db) (id : TaskId) :
    (metadataStep db id).expiryMetadata = db.expiryMetadata.del id := by
  unfold metadataStep
  cases db.owners.get? id <;> rfl

theorem edits_delayedLane (good : (ledger db).WellFormed) (lane : Lane) :
    Edits fresh now .sweep db (delayedLane now db lane) := by
  refine edits_batch (delayedStep lane) (fun db id => (db.delayed lane).contains id = true)
    (fun db id good listed => edits_delayedStep good lane id listed) ?_ _
    (ZSet.rangeByScore_nodup _ _ _) db good ?_
  · intro db id other ne listed
    rw [delayedStep_delayed, atLane_self]
    exact contains_del_ne ne listed
  · intro id member
    obtain ⟨score, found, _⟩ := ZSet.mem_rangeByScore member
    rw [Dict.contains, found]
    rfl

theorem edits_metadataPass (good : (ledger db).WellFormed) :
    Edits fresh now .sweep db (metadataPass db now) := by
  refine edits_batch metadataStep
    (fun db id => ∃ score, db.expiryMetadata.get? id = some score ∧ score ≤ now)
    (fun db id good due => Edits.single (.forgets rfl due)) ?_ _
    (ZSet.rangeByScore_nodup _ _ _) db good (fun id member => ZSet.mem_rangeByScore member)
  rintro db id other ne ⟨score, found, due⟩
  rw [metadataStep_expiryMetadata]
  exact ⟨score, (db.expiryMetadata.get?_del_ne ne).trans found, due⟩

/-- A pass whose steps ask nothing of their ids. -/
theorem edits_pass (step : Db → TaskId → Db)
    (each : ∀ db id, (ledger db).WellFormed → Edits fresh now cause db (step db id))
    (set : ZSet) (limit : Nat) (good : (ledger db).WellFormed) :
    Edits fresh now cause db ((set.rangeByScore now limit).foldl step db) :=
  edits_batch step (fun _ _ => True) (fun db id good _ => each db id good)
    (fun _ _ _ _ _ => trivial) _ (ZSet.rangeByScore_nodup _ _ _) db good fun _ _ => trivial

theorem edits_delayedPass (good : (ledger db).WellFormed) :
    Edits fresh now .sweep db (delayedPass db now) := by
  have through : ∀ (lanes : List Lane) (db : Db), (ledger db).WellFormed →
      Edits fresh now .sweep db (lanes.foldl (delayedLane now) db) := by
    intro lanes
    induction lanes with
    | nil => exact fun db _ => Edits.refl db
    | cons lane rest ih =>
      intro db good
      have first : Edits fresh now .sweep db (delayedLane now db lane) :=
        edits_delayedLane good lane
      exact first.trans (ih _ (first.wellFormed good))
  exact through Lane.all db good

theorem edits_payloadPass (good : (ledger db).WellFormed) :
    Edits fresh now .sweep db (payloadPass db now) :=
  edits_pass (payloadStep now) (fun _ id good => edits_payloadStep good id) _ _ good

theorem edits_deadlinePass (good : (ledger db).WellFormed) :
    Edits fresh now .sweep db (deadlinePass db now) :=
  edits_pass (deadlineStep now) (fun _ id good => edits_deadlineStep good id) _ _ good

theorem edits_runningPass (good : (ledger db).WellFormed) :
    Edits fresh now .sweep db (runningPass db now) :=
  edits_pass (runningStep now) (fun _ id good => edits_runningStep good id) _ _ good

theorem edits_lastPasses (good : (ledger db).WellFormed) :
    Edits fresh now .sweep db (metadataPass (delayedPass db now) now) := by
  have due : Edits fresh now .sweep db (delayedPass db now) := edits_delayedPass good
  exact due.trans (edits_metadataPass (due.wellFormed good))

theorem edits_sweep (good : (ledger db).WellFormed) : Edits fresh now .sweep db (sweep db now) := by
  have expires : Edits fresh now .sweep db (expire db now) := Edits.single (.expires rfl)
  have unpaid := expires.trans (edits_payloadPass (expires.wellFormed good))
  have overdue := unpaid.trans (edits_deadlinePass (unpaid.wellFormed good))
  have lost := overdue.trans (edits_runningPass (overdue.wellFormed good))
  exact lost.trans (edits_lastPasses (lost.wellFormed good))

/-! ## Admission -/

/-- What an admission can do, with the tests that lead there. -/
inductive Admits (db : Db) (now : Time) (submission : Submission) (policy : QueuePolicy)
    (credit : Nat) : QueueAdmission → Db → Prop where
  | repeated {old : Alias} (known : db.idem.get? submission.identity = some old)
      (same : old.fingerprint = submission.fingerprint) :
      Admits db now submission policy credit ⟨.existing, some old.taskId, none⟩ db
  | differs {old : Alias} (known : db.idem.get? submission.identity = some old)
      (other : old.fingerprint ≠ submission.fingerprint) :
      Admits db now submission policy credit
        (rejected "idempotency_conflict" (some old.taskId)) db
  | full {existing : TaskId} (new : db.idem.get? submission.identity = none)
      (held : conflictOwner db submission.lane submission.conflictKeys = some existing)
      (aliases : 256 ≤ ((db.identities.get? existing).elim [] AliasSet.members).length) :
      Admits db now submission policy credit (rejected "idempotency_capacity") db
  | joins {existing : TaskId} (new : db.idem.get? submission.identity = none)
      (held : conflictOwner db submission.lane submission.conflictKeys = some existing)
      (aliases : ((db.identities.get? existing).elim [] AliasSet.members).length < 256) :
      Admits db now submission policy credit
        ⟨.existing, some existing, some "conflict_existing"⟩
        { db with
          idem := db.idem.set submission.identity
            ⟨existing, submission.fingerprint, now + metadataRetention⟩
          identities := addAlias db.identities existing submission.identity }
  | refuses {reason : String} (new : db.idem.get? submission.identity = none)
      (free : conflictOwner db submission.lane submission.conflictKeys = none)
      (limit : capacityReason db submission.lane
        (laneState db submission.lane (policy.meet (scriptCeiling submission.lane)))
        (limits db submission policy) submission.job.payload.size credit = some reason) :
      Admits db now submission policy credit (rejected reason) db
  | accepts (takes : Takes db submission policy credit) :
      Admits db now submission policy credit ⟨.accepted, some submission.job.taskId, none⟩
        (taken db now submission policy)

theorem admission_spec (db : Db) (now : Time) (submission : Submission) (policy : QueuePolicy)
    (credit : Nat) :
    Admits db now submission policy credit (admission db now submission policy credit).1
      (admission db now submission policy credit).2 := by
  unfold admission
  split
  · next old known =>
      split
      · next same => exact .repeated known same
      · next other => exact .differs known other
  · next new =>
      dsimp only
      split
      · next existing held =>
          split
          · next aliases => exact .full new held aliases
          · next aliases => exact .joins new held (Nat.lt_of_not_ge aliases)
      · next free =>
          unfold admissionNew
          dsimp only
          split
          · next reason limit => exact .refuses new free limit
          · next room => exact .accepts ⟨new, free, room⟩

theorem edits_admitJob (job : JobEnvelope) (policy : QueuePolicy) (lane : Lane)
    (clear : Takes db (submission job lane) (boundedPolicy lane policy) 0 → fresh db job.taskId) :
    Edits fresh now (.call (.admitJob job policy)) db (admitJob db now job lane policy).2 := by
  have spec := admission_spec db now (submission job lane) (boundedPolicy lane policy) 0
  unfold admitJob
  generalize admission db now (submission job lane) (boundedPolicy lane policy) 0 = outcome
    at spec ⊢
  obtain ⟨reply, after⟩ := outcome
  cases spec with
  | repeated | differs | full => exact Edits.refl _
  | joins new held => exact Edits.single (.joins new held)
  | refuses => exact Edits.refl _
  | accepts takes => exact Edits.single (.accepts rfl (clear takes) takes)

/-! ## Claims -/

/-- The listed ids that a claim passes over or ends because nothing can be started. -/
inductive Passes (now : Time) (lane : Lane) : Db → Db → Prop where
  | refl (db : Db) : Passes now lane db db
  | unlists {db after : Db} {id : TaskId}
      (moved : ∀ m, db.jobs.get? id = some m → m.state ≠ .queued)
      (rest : Passes now lane
        { db with ready := atLane db.ready lane fun set => set.del id } after) :
      Passes now lane db after
  | exhausted {db after : Db} {m : ScriptJob} (found : db.jobs.get? m.taskId = some m)
      (queued : m.state = .queued) (spent : m.maxAttempts ≤ m.attemptsStarted)
      (rest : Passes now lane (terminal db now m .failed (some "attempts_exhausted") true)
        after) :
      Passes now lane db after
  | payloadGone {db after : Db} {m : ScriptJob} (found : db.jobs.get? m.taskId = some m)
      (queued : m.state = .queued) (gone : db.payload.contains m.taskId = false)
      (rest : Passes now lane (terminal db now m .expired (some "payload_expired") false)
        after) :
      Passes now lane db after

/-- What a claim can do: pass over some listed ids, then start one or none. -/
inductive Claims (db : Db) (now : Time) (lane : Lane) (ownerToken : String) :
    Option ScriptJob → Db → Prop where
  | nothing {after : Db} (passes : Passes now lane db after) :
      Claims db now lane ownerToken none after
  | starts {middle : Db} {m : ScriptJob} (passes : Passes now lane db middle)
      (found : middle.jobs.get? m.taskId = some m)
      (listed : (middle.ready lane).contains m.taskId = true) (queued : m.state = .queued)
      (left : m.attemptsStarted < m.maxAttempts)
      (idle : m.imageWork = true → middle.permit = none)
      (payload : middle.payload.contains m.taskId = true) :
      Claims db now lane ownerToken (some (started m now ownerToken))
        (start middle now lane m ownerToken)

theorem Claims.pass {db middle after : Db} {lane : Lane} {ownerToken : String}
    {result : Option ScriptJob}
    (step : ∀ last, Passes now lane middle last → Passes now lane db last)
    (claims : Claims middle now lane ownerToken result after) :
    Claims db now lane ownerToken result after := by
  cases claims with
  | nothing passes => exact .nothing (step _ passes)
  | starts passes found listed queued left idle payload =>
    exact .starts (step _ passes) found listed queued left idle payload

theorem contains_atLane_del {sets : Lane → ZSet} {lane each : Lane} {id other : TaskId}
    (ne : other ≠ id) (listed : (sets lane).contains other = true) :
    (atLane sets each (fun set => set.del id) lane).contains other = true := by
  unfold atLane
  split
  · exact contains_del_ne ne listed
  · exact listed

theorem claimLoop_spec (lane : Lane) (ownerToken : String) (ids : List TaskId)
    (nodup : ids.Nodup) (db : Db) (good : (ledger db).WellFormed)
    (listed : ∀ id ∈ ids, (db.ready lane).contains id = true) :
    Claims db now lane ownerToken (claimLoop now lane ownerToken db ids).1
      (claimLoop now lane ownerToken db ids).2 := by
  induction ids generalizing db with
  | nil => exact .nothing (.refl db)
  | cons id rest ih =>
    obtain ⟨absent, distinct⟩ := List.nodup_cons.mp nodup
    have apart : ∀ other ∈ rest, other ≠ id := fun other member same =>
      absent (same ▸ member)
    have listed' : ∀ (after : Db) (each : Lane),
        after.ready = atLane db.ready each (fun set => set.del id) →
        ∀ other ∈ rest, (after.ready lane).contains other = true := by
      intro after each ready other member
      rw [ready]
      exact contains_atLane_del (apart other member)
        (listed other (List.mem_cons_of_mem _ member))
    unfold claimLoop
    split
    · next moved =>
        have moved' : ∀ m, db.jobs.get? id = some m → m.state ≠ .queued := by
          intro m found
          rw [found] at moved
          simpa using Option.filter_eq_none_iff.mp moved m rfl
        let pruned : Db := { db with ready := atLane db.ready lane fun set => set.del id }
        exact (ih distinct pruned good (listed' pruned lane rfl)).pass
          fun _ passes => .unlists moved' passes
    · next m selected =>
        obtain ⟨found, queued⟩ := Option.filter_eq_some_iff.mp selected
        have waits : m.state = .queued := of_decide_eq_true queued
        have same := named good found
        subst same
        have ended (state : JobState) (reason : Option String) (safe : Bool)
            (how : Ending (.call (.claim lane ownerToken)) m.toJobRecord state
              (retains db m safe)) :
            (ledger (terminal db now m state reason safe)).WellFormed :=
          (@Edit.progress (fun _ _ => True) now _ _ _
            (.ends found (Moves.refl _) ⟨rfl, rfl⟩ reason how)).wellFormed good
        split
        · next spent =>
            exact (ih distinct _ (ended _ _ _ (.exhausted waits spent))
              (listed' _ m.lane (terminal_ready ..))).pass
              fun _ passes => .exhausted found waits spent passes
        · next left =>
            split
            · exact ih distinct db good fun other member =>
                listed other (List.mem_cons_of_mem _ member)
            · next idle =>
                split
                · next payload =>
                    refine .starts (.refl db) found (listed _ List.mem_cons_self) waits
                      (Nat.lt_of_not_ge left) (fun image => ?_) payload
                    rw [image, Bool.true_and] at idle
                    exact Option.not_isSome_iff_eq_none.mp idle
                · next gone =>
                    exact (ih distinct _ (ended _ _ _ (.payloadGone waits))
                      (listed' _ m.lane (terminal_ready ..))).pass
                      fun _ passes =>
                        .payloadGone found waits (Bool.eq_false_iff.mpr gone) passes

theorem claim_spec (good : (ledger db).WellFormed) (lane : Lane) (ownerToken : String) :
    Claims db now lane ownerToken (claim db now lane ownerToken).1
      (claim db now lane ownerToken).2 := by
  unfold claim
  split
  · exact .nothing (.refl db)
  · exact claimLoop_spec lane ownerToken _ (ZSet.range_nodup _ _) db good
      fun id member => ZSet.mem_range member

theorem edits_passes {lane : Lane} {ownerToken : String} (passes : Passes now lane db after) :
    Edits fresh now (.call (.claim lane ownerToken)) db after := by
  induction passes with
  | refl => exact Edits.refl _
  | unlists moved _ ih => exact (Edits.single (.unlistsReady lane moved)).trans ih
  | exhausted found queued spent _ ih =>
    exact (Edits.single
      (.ends found (Moves.refl _) ⟨rfl, rfl⟩ _ (.exhausted queued spent))).trans ih
  | payloadGone found queued _ _ ih =>
    exact (Edits.single (.ends found (Moves.refl _) ⟨rfl, rfl⟩ _ (.payloadGone queued))).trans ih

theorem edits_claims {lane : Lane} {ownerToken : String} {result : Option ScriptJob}
    (claims : Claims db now lane ownerToken result after) :
    Edits fresh now (.call (.claim lane ownerToken)) db after := by
  cases claims with
  | nothing passes => exact edits_passes passes
  | starts passes found listed queued left idle payload =>
    exact (edits_passes passes).trans
      (Edits.single (.starts rfl found listed queued left idle payload))

/-! ## Owners -/

theorem owned?_eq_some {db : Db} {taskId : TaskId} {ownerToken : String} {revision : Nat}
    {m : ScriptJob} :
    owned? db taskId ownerToken revision = some m ↔
      db.jobs.get? taskId = some m ∧ m.toJobRecord.OwnedBy ownerToken revision := by
  unfold owned?
  rw [Option.filter_eq_some_iff]
  simp only [Bool.and_eq_true, decide_eq_true_eq, and_assoc]
  exact and_congr_right fun _ =>
    ⟨fun ⟨held, token, current⟩ => ⟨held, token, current⟩,
      fun ⟨held, token, current⟩ => ⟨held, token, current⟩⟩

theorem edits_heartbeat (good : (ledger db).WellFormed) (taskId : TaskId) (ownerToken : String)
    (revision : Nat) :
    Edits fresh now (.call (.heartbeat taskId ownerToken revision)) db
      (heartbeat db now taskId ownerToken revision).2 := by
  unfold heartbeat
  split
  · exact Edits.refl _
  · next m owner =>
      obtain ⟨found, owned⟩ := owned?_eq_some.mp owner
      have same := named good found
      subst same
      exact Edits.single (.beats rfl found owned)

theorem edits_progress (good : (ledger db).WellFormed) (taskId : TaskId) (ownerToken : String)
    (revision : Nat) (summary : Summary) :
    Edits fresh now (.call (.updateProgress taskId ownerToken revision summary)) db
      (progress db taskId ownerToken revision summary).2 := by
  unfold progress
  split
  · exact Edits.refl _
  · next clean _ =>
      split
      · exact Edits.refl _
      · next m selected =>
          obtain ⟨owner, _⟩ := Option.filter_eq_some_iff.mp selected
          obtain ⟨found, owned⟩ := owned?_eq_some.mp owner
          have same := named good found
          subst same
          exact Edits.single
            (.annotates found (Moves.single (.progress owned clean)) (.inl ⟨clean, rfl⟩))

/-- What a settlement can do: end the job, or put it back into its lane. -/
inductive Settles (db : Db) (now : Time) (m : ScriptJob) (ownerToken : String)
    (revision : Nat) (result : JobResult) (delay : Time) : Db → Prop where
  | ends {state : JobState} {safe : Bool} (reason : Option String)
      (how : Ending (.call (.finish m.taskId ownerToken revision result delay)) m.toJobRecord
        state (retains db m safe)) :
      Settles db now m ownerToken revision result delay (terminal db now m state reason safe)
  | requeues (running : m.state = .running) (outcome : result.outcome = .retryableFailure)
      (left : m.attemptsStarted < m.maxAttempts)
      (timely : now + delay < m.queueDeadlineAt) :
      Settles db now m ownerToken revision result delay
        (requeueRetry db now m delay result.reasonCode)

theorem settle_spec (db : Db) (now : Time) {m : ScriptJob} {ownerToken : String}
    {revision : Nat} (owned : m.toJobRecord.OwnedBy ownerToken revision) (result : JobResult)
    (delay : Time) :
    Settles db now m ownerToken revision result delay (settle db now m result delay) := by
  unfold settle
  split
  · next outcome => exact .ends _ (.uncertainResult owned outcome)
  · split
    · next requested => exact .ends _ (.cancelledResult owned requested)
    · next unrequested =>
        have running := JobState.running_of_owned owned.owned unrequested
        split
        · next outcome =>
            split
            · exact .ends _ (.retryExhausted owned running outcome)
            · next left =>
                split
                · exact .ends _ (.retryLate owned running outcome)
                · next timely =>
                    exact .requeues running outcome (Nat.lt_of_not_ge left) (not_le.mp timely)
        · next retryable =>
            split
            · next outcome => exact .ends _ (.succeeded owned running outcome)
            · next failing certain =>
                have outcome := JobOutcome.permanent ‹_› retryable certain
                exact .ends _ (.failed owned running outcome)

/-- A settled record is no longer held. -/
theorem Settles.released {m : ScriptJob} {ownerToken : String} {revision : Nat}
    {result : JobResult} {delay : Time}
    (settles : Settles db now m ownerToken revision result delay after) :
    ∃ next, after.jobs.get? m.taskId = some next ∧ next.taskId = m.taskId ∧
      next.state.owned = false ∧ next.finishToken = m.finishToken := by
  cases settles with
  | @ends state safe reason how =>
    refine ⟨ended db now m state reason safe, ?_, rfl, ?_, rfl⟩
    · rw [terminal_jobs, Dict.get?_set_self]
    · exact JobState.owned_eq_false_of_ended how.active_ends.2
  | requeues =>
    refine ⟨requeued m now delay result.reasonCode, ?_, rfl,
      JobState.owned_eq_false_of_waiting (m.requeueRetry_waiting now delay result.reasonCode),
      rfl⟩
    rw [requeueRetry_jobs, Dict.get?_set_self]

theorem markSettled_eq {m : ScriptJob} (found : db.jobs.get? m.taskId = some m)
    (ownerToken : String) :
    markSettled db m.taskId ownerToken =
      save db { m with toJobRecord := m.settledBy ownerToken } := by
  unfold markSettled save Dict.modify
  rw [found]
  rfl

theorem edits_settle {m : ScriptJob} (found : db.jobs.get? m.taskId = some m)
    (unsettled : m.finishToken = none) {ownerToken : String} {revision : Nat}
    (owned : m.toJobRecord.OwnedBy ownerToken revision) (result : JobResult) (delay : Time)
    (clean : PublicSummary) :
    Edits fresh now (.call (.finish m.taskId ownerToken revision result delay)) db
      (markSettled (settle db now { m with toJobRecord := m.summarise clean } result delay)
        m.taskId ownerToken) := by
  have owned' := owned.summarise clean
  have settles := settle_spec db now (m := { m with toJobRecord := m.summarise clean }) owned'
    result delay
  generalize settle db now { m with toJobRecord := m.summarise clean } result delay = after
    at settles
  have first : Edit fresh now (.call (.finish m.taskId ownerToken revision result delay)) db
      after := by
    cases settles with
    | ends reason how =>
      exact .ends found (Moves.single (.result owned clean)) ⟨rfl, rfl⟩ reason how
    | requeues running outcome left timely =>
      exact .requeuesRetry clean rfl found owned running outcome left timely
  obtain ⟨next, stored, same, released, kept⟩ := settles.released
  have stored' : after.jobs.get? next.taskId = some next := same ▸ stored
  refine (Edits.single first).trans (Edits.single ?_)
  have named : m.taskId = next.taskId := same.symm
  rw [named, markSettled_eq stored']
  exact .annotates stored' (Moves.single (.settled released (kept.trans unsettled)))
    (.inr ⟨ownerToken, rfl⟩)

theorem edits_finish (good : (ledger db).WellFormed) (taskId : TaskId) (ownerToken : String)
    (revision : Nat) (result : JobResult) (delay : Time) :
    Edits fresh now (.call (.finish taskId ownerToken revision result delay)) db
      (finish db now taskId ownerToken revision result delay).2 := by
  unfold finish
  split
  · exact Edits.refl _
  · next clean _ =>
      split
      · exact Edits.refl _
      · split
        · exact Edits.refl _
        · next m owner =>
            obtain ⟨found, owned⟩ := owned?_eq_some.mp owner
            have same := named good found
            subst same
            have unsettled := (good.record _ _ (ledger_of_get? found)).unsettled owned.owned
            exact edits_settle found unsettled owned result delay clean

/-! ## Operator commands -/

/-- A command that is not refused for its operation is new or remembered. -/
theorem command_eq_none {key : OperationKey} {body : CommandBody}
    (unused : command db key body = .ok none) : db.operation.get? key = none := by
  unfold command at unused
  split at unused
  · assumption
  · split at unused <;> cases unused

theorem edits_cancel (good : (ledger db).WellFormed) (taskId : TaskId) (revision : Nat)
    (actor operationId : String) :
    Edits fresh now (.call (.requestCancel taskId revision actor operationId)) db
      (cancel db now taskId revision actor operationId).2 := by
  unfold cancel
  dsimp only
  split
  · exact Edits.refl _
  · split <;> exact Edits.refl _
  · next unused =>
    split
    · exact Edits.refl _
    · next m selected =>
        obtain ⟨found, current⟩ := Option.filter_eq_some_iff.mp selected
        have same := named good found
        subst same
        have revised : m.revision = revision := of_decide_eq_true current
        subst revised
        refine Edits.trans ?_ (Edits.single (.remembers _ rfl (.cancel ..) ?_ (.cancel ..)))
        rotate_left
        · have kept : ∀ keys : Db, keys.operation = db.operation →
              keys.operation.get? (operationKey actor operationId) = none := by
            intro keys same
            rw [same]
            exact command_eq_none unused
          apply kept
          split
          · rfl
          · split
            · exact terminal_operation ..
            · rfl
        split
        · next owned => exact Edits.single (.requestsCancel rfl found owned)
        · next released =>
            split
            · next active =>
                have waits : m.state.waiting = true := by
                  rw [JobState.active_eq, Bool.eq_false_iff.mpr released, Bool.false_or] at active
                  exact active
                exact Edits.single (.ends found (Moves.refl _) ⟨rfl, rfl⟩ _ (.withdrawn waits))
            · exact Edits.refl _

/-- The task id an accepted command gives to a new record. -/
inductive Accepts (db : Db) : Command → TaskId → Prop where
  | admitJob {job : JobEnvelope} {policy : QueuePolicy} {lane : Lane}
      (named : Lane.ofName? job.lane = some lane)
      (takes : Takes db (submission job lane) (boundedPolicy lane policy) 0) :
      Accepts db (.admitJob job policy) job.taskId
  | retry {taskId : TaskId} {revision : Nat} {actor operationId : String}
      {epoch : Option Int} {m : ScriptJob} {payload : Payload}
      (unused : db.operation.get? (operationKey actor operationId) = none)
      (found : db.jobs.get? taskId = some m) (current : m.revision = revision)
      (offered : retryable? db m epoch = some payload)
      (takes : Takes db
        (retryChild m (operationKey actor operationId) (.retry taskId revision) payload epoch)
        (lanePolicies m.lane) (credit m)) :
      Accepts db (.retryJob taskId revision actor operationId epoch)
        (.operation (operationKey actor operationId))

theorem edits_retry (good : (ledger db).WellFormed) (taskId : TaskId) (revision : Nat)
    (actor operationId : String) (epoch : Option Int)
    (clear : ∀ id, Accepts db (.retryJob taskId revision actor operationId epoch) id →
      fresh db id) :
    Edits fresh now (.call (.retryJob taskId revision actor operationId epoch)) db
      (retry db now taskId revision actor operationId epoch).2 := by
  unfold retry
  dsimp only
  split
  · exact Edits.refl _
  · exact Edits.refl _
  · exact Edits.refl _
  · next unused =>
      have unremembered := command_eq_none unused
      split
      · exact Edits.refl _
      · next m selected =>
          obtain ⟨found, current⟩ := Option.filter_eq_some_iff.mp selected
          have same := named good found
          subst same
          have revised : m.revision = revision := of_decide_eq_true current
          subst revised
          split
          · exact Edits.refl _
          · next payload offered =>
              obtain ⟨_, ended, _, _⟩ := retryable?_eq_some offered
              have spec := admission_spec db now
                (retryChild m (operationKey actor operationId) (.retry m.taskId m.revision) payload
                  epoch)
                (lanePolicies m.lane) (if m.payloadAccounted then m.payloadBytes else 0)
              generalize admission db now
                (retryChild m (operationKey actor operationId) (.retry m.taskId m.revision) payload
                  epoch)
                (lanePolicies m.lane) (if m.payloadAccounted then m.payloadBytes else 0) = outcome
                at spec ⊢
              obtain ⟨reply, after⟩ := outcome
              dsimp only at spec ⊢
              cases spec with
              | differs | full | refuses => exact Edits.refl _
              | repeated =>
                rw [if_pos (.inr rfl)]
                dsimp only
                split
                · exact Edits.single (.remembers _ rfl (.retry ..) unremembered (.retry ..))
                · exact (Edits.single (.handsOver rfl found ended)).trans
                    (Edits.single (.remembers _ rfl (.retry ..) unremembered (.retry ..)))
              | @joins existing new held _ =>
                rw [if_pos (.inr rfl)]
                dsimp only
                have joined : Edits fresh now
                    (.call (.retryJob m.taskId m.revision actor operationId epoch)) db _ :=
                  Edits.single (.joins new held)
                split
                · exact joined.trans
                    (Edits.single (.remembers _ rfl (.retry ..) unremembered (.retry ..)))
                · exact (joined.trans (Edits.single (.handsOver rfl found ended))).trans
                    (Edits.single (.remembers _ rfl (.retry ..) unremembered (.retry ..)))
              | accepts takes =>
                rw [if_pos (.inl rfl)]
                dsimp only
                rw [if_neg (fun differ => differ rfl)]
                refine (Edits.single ?_).trans
                  (Edits.single (.remembers _ rfl (.retry ..) ?_ (.retry ..)))
                rotate_left
                · have kept : (taken db now
                      (retryChild m (operationKey actor operationId)
                        (.retry m.taskId m.revision) payload epoch)
                      (lanePolicies m.lane)).operation = db.operation := by
                    unfold taken accept
                    dsimp only
                    split <;> rfl
                  change (taken db now _ _).operation.get? _ = none
                  rw [kept]
                  exact unremembered
                exact .succeeds rfl found offered
                  (clear _ (.retry unremembered found rfl offered takes)) takes

theorem edits_setLane (lane : Lane) (revision : Nat) (admissionPaused claimPaused : Bool)
    (actor operationId : String) :
    Edits fresh now
      (.call (.setLaneState lane revision admissionPaused claimPaused actor operationId)) db
      (setLane db now lane revision admissionPaused claimPaused actor operationId).2 := by
  unfold setLane
  dsimp only
  split
  · exact Edits.refl _
  · exact Edits.refl _
  · next unused =>
    split
    · exact Edits.refl _
    · let updated : LaneRecord := ⟨(laneState db lane (lanePolicies lane)).revision + 1,
        admissionPaused, claimPaused, (laneState db lane (lanePolicies lane)).policy⟩
      have sets : Edit fresh now
          (.call (.setLaneState lane revision admissionPaused claimPaused actor operationId)) db
          { db with lane := db.lane.set lane updated } := .setsLane rfl
      exact (Edits.single sets).trans
        (Edits.single (.remembers _ rfl (.lane ..) (command_eq_none unused) (.lane ..)))

theorem edits_erase (userId : Int) (members : List TaskId) :
    Edits fresh now (.call (.eraseUser userId members)) db (erase db userId members).2 := by
  have through : ∀ (ids : List TaskId) (db : Db),
      Edits fresh now (.call (.eraseUser userId members)) db
        (ids.foldl (eraseStep userId) db) := by
    intro ids
    induction ids with
    | nil => exact fun db => Edits.refl db
    | cons id rest ih => exact fun db => (Edits.single (.erases id rfl)).trans (ih _)
  exact through _ db

/-! ## The commands -/

/-- The action of a script is made of elementary changes. -/
theorem edits_act (good : (ledger db).WellFormed) (command : Command)
    (clear : ∀ id, Accepts db command id → fresh db id) :
    Edits fresh now (.call command) db (act now db command).2 := by
  cases command with
  | admitJob job policy =>
    simp only [act]
    split
    · exact Edits.refl db
    · next lane named =>
        exact edits_admitJob job policy lane fun takes => clear _ (.admitJob named takes)
  | claim lane ownerToken => exact edits_claims (claim_spec good lane ownerToken)
  | loadPayload taskId ownerToken => exact Edits.refl db
  | heartbeat taskId ownerToken revision => exact edits_heartbeat good taskId ownerToken revision
  | updateProgress taskId ownerToken revision summary =>
    exact edits_progress good taskId ownerToken revision summary
  | finish taskId ownerToken revision result delay =>
    exact edits_finish good taskId ownerToken revision result delay
  | requestCancel taskId revision actor operationId =>
    exact edits_cancel good taskId revision actor operationId
  | retryJob taskId revision actor operationId epoch =>
    exact edits_retry good taskId revision actor operationId epoch clear
  | sweep => exact Edits.refl db
  | setLaneState lane revision admissionPaused claimPaused actor operationId =>
    exact edits_setLane lane revision admissionPaused claimPaused actor operationId
  | eraseUser userId members => exact edits_erase userId members
  | readJob taskId | privateRecord taskId | readJobByOperation userId idempotencyKey
  | readJobsByConflicts userId lane conflictKeys | readLane lane
  | listJobs lane state cursor limit => exact Edits.refl db

/-- A command leaves the keys alone, or it is a sweep followed by its action. -/
theorem exec_cases (now : Time) (db : Db) (command : Command) :
    (∃ reply, exec now db command = (reply, db)) ∨ (answered now db command = none ∧
        exec now db command = act now (sweep db now) command) := by
  unfold exec
  cases answered now db command with
  | some reply => exact .inl ⟨reply, rfl⟩
  | none => exact .inr ⟨rfl, rfl⟩

/-- No admission of the command takes the id of a record that its sweep has left. -/
def Fresh (now : Time) (db : Db) (command : Command) : Prop :=
  answered now db command = none → ∀ id, Accepts (sweep db now) command id →
    (sweep db now).jobs.get? id = none

theorem command_exec (good : (ledger db).WellFormed) (command : Command) :
    Ledger.Command (Fresh now db command) now command (ledger db)
      (ledger (exec now db command).2) := by
  rcases exec_cases now db command with ⟨reply, same⟩ | ⟨sent, same⟩
  · rw [same]
    exact ⟨ledger db, Ledger.Progress.refl _, Ledger.Progress.refl _⟩
  · rw [same]
    let promised : Db → TaskId → Prop := fun keys id =>
      Fresh now db command → keys.jobs.get? id = none
    have clears (holds : Fresh now db command) : Clears promised := fun _ _ clear => clear holds
    have swept : Edits promised now .sweep db (sweep db now) := edits_sweep good
    have own : Edits promised now (.call command) (sweep db now)
        (act now (sweep db now) command).2 :=
      edits_act (swept.wellFormed good) command fun id accepts fresh => fresh sent id accepts
    exact ⟨ledger (sweep db now), swept.progress.mono clears, own.progress.mono clears⟩

end Phases

end Script

namespace ScriptMachine

def ledger (machine : ScriptMachine) : Ledger := Script.ledger machine.db

/-- No admission of the step takes the id of a record. -/
def Fresh (machine : ScriptMachine) : Label → Prop
  | .advance _ => True
  | .call command => Script.Fresh machine.clock machine.db command

theorem ledger_step (machine : ScriptMachine) (good : machine.ledger.WellFormed)
    (label : Label) :
    Ledger.Step (machine.Fresh label) machine.clock label machine.ledger
      (machine.step label).ledger := by
  cases label with
  | advance elapsed => rfl
  | call command => exact Script.command_exec good command

theorem initial_wellFormed (clock : Time) : (initial clock).ledger.WellFormed :=
  Ledger.empty_wellFormed

end ScriptMachine

end BobbyBotique.Queue
