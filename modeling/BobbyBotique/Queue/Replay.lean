import BobbyBotique.Queue.Fencing

/-!
# Replayed operator commands

A cancel, a retry or a change of a lane is remembered under the digest of its
actor and operation id, with its arguments and its target, for twenty-four
hours.  A command whose operation is remembered changes nothing but what its
sweep changes.  The operation is forgotten by age or by an erasure only.
-/

namespace BobbyBotique.Queue

/-- The target a retry is remembered with is a job. -/
theorem CommandBody.Targets.child {taskId : TaskId} {revision : Nat} {target : Target}
    (targets : (CommandBody.retry taskId revision).Targets target) :
    ∃ child, target = .job child := by
  cases targets with
  | retry _ child => exact ⟨child, rfl⟩

namespace MemoryQueueStore

variable {fresh : Prop} {now : Time} {cause : Cause} {s t : MemoryQueueStore}
variable {key : OperationKey} {entry : Operation}

/-- What every remembered operation satisfies. -/
def Noted (s : MemoryQueueStore) : Prop :=
  ∀ key entry, s.operations.get? key = some entry → entry.fingerprint.Targets entry.target ∧
      ∀ lane, entry.target = .lane lane → s.lanes.contains lane = true

/-- The change touches neither the operations nor the lanes. -/
theorem Noted.congr (noted : Noted s) (operations : t.operations = s.operations)
    (lanes : t.lanes = s.lanes) : Noted t := by
  unfold Noted
  rw [operations, lanes]
  exact noted

theorem opened_contains (s : MemoryQueueStore) (lane : Lane) (policy : QueuePolicy) {other : Lane}
    (there : s.lanes.contains other = true) :
    (s.opened lane policy).lanes.contains other = true := by
  unfold opened
  dsimp only
  split
  · exact there
  · rw [Dict.contains, Dict.get?_set]
    split
    · rfl
    · exact there

theorem eraseJob_operations (s : MemoryQueueStore) (id : TaskId) :
    (s.eraseJob id).operations = s.operations ∧ (s.eraseJob id).lanes = s.lanes := by
  unfold eraseJob
  cases s.jobs.get? id <;> exact ⟨rfl, rfl⟩

theorem Edit.noted (edit : Edit fresh now cause s t) (noted : Noted s) : Noted t := by
  have grown : ∀ (u : MemoryQueueStore), u.operations = s.operations →
      (∀ lane, s.lanes.contains lane = true → u.lanes.contains lane = true) → Noted u := by
    intro u operations lanes key entry found
    rw [operations] at found
    obtain ⟨targets, opened⟩ := noted key entry found
    exact ⟨targets, fun lane same => lanes lane (opened lane same)⟩
  cases edit with
  | ends => exact noted.congr (terminal_operations ..) (terminal_lanes ..)
  | erases =>
    obtain ⟨operations, lanes⟩ := s.eraseJob_operations _
    exact noted.congr operations lanes
  | accepts => exact grown _ rfl fun other => opened_contains s _ _
  | @succeeds m record payload revision actor operationId epoch _ _ _ _ _ _ _ _ _ _ =>
    cases decide (TaskId.operation (operationKey actor operationId) = m.taskId) <;>
      exact noted.congr rfl rfl
  | opens lane policy => exact grown _ rfl fun other => opened_contains s _ _
  | @sets lane record updated found policy =>
    refine grown _ rfl fun other there => ?_
    rw [Dict.contains, Dict.get?_set]
    split
    · rfl
    · exact there
  | @notes command key body target _ _ _ targets opened =>
    intro other entry found
    change (s.operations.set key _).get? other = some entry at found
    rw [Dict.get?_set] at found
    split at found
    · cases found
      exact ⟨targets, opened⟩
    · exact noted other entry found
  | disowns _ keep | forgets =>
    intro other entry found
    exact noted other entry ((Dict.get?_retain_eq_some _ _ _ _).mp found).1
  | _ => exact noted.congr rfl rfl

/-- Only an erasure or its age makes the store forget an operation. -/
theorem Edit.recalls (edit : Edit fresh now cause s t)
    (lasting : ∀ userId members, cause ≠ .call (.eraseUser userId members))
    (known : s.operations.get? key = some entry) (young : now < entry.expiresAt) :
    t.operations.get? key = some entry := by
  cases edit with
  | ends => rw [terminal_operations]; exact known
  | erases called => exact absurd called (lasting _ _)
  | @succeeds m record payload revision actor operationId epoch _ _ _ _ _ _ _ _ _ _ =>
    cases decide (TaskId.operation (operationKey actor operationId) = m.taskId) <;> exact known
  | @notes command other body target _ _ unused _ _ =>
    have apart : key ≠ other := by
      rintro rfl
      rw [unused] at known
      cases known
    exact (Dict.get?_set_ne _ _ apart).trans known
  | disowns called => exact absurd called (lasting _ _)
  | forgets => exact (Dict.get?_retain_eq_some _ _ _ _).mpr ⟨known, decide_eq_true young⟩
  | _ => exact known

/-- A sweep remembers no operation of its own. -/
theorem Edit.operation_origin (edit : Edit fresh now .sweep s t)
    (known : t.operations.get? key = some entry) : s.operations.get? key = some entry := by
  cases edit with
  | ends => rwa [terminal_operations] at known
  | erases called | succeeds called | notes called | disowns called => cases called
  | forgets => exact ((Dict.get?_retain_eq_some _ _ _ _).mp known).1
  | _ => exact known

theorem Edits.operation_origin (edits : Edits fresh now .sweep s t)
    (known : t.operations.get? key = some entry) : s.operations.get? key = some entry := by
  induction edits with
  | refl => exact known
  | tail _ last ih => exact ih (last.operation_origin known)

theorem Edits.noted (edits : Edits fresh now cause s t) (noted : Noted s) : Noted t := by
  induction edits with
  | refl => exact noted
  | tail _ last ih => exact last.noted ih

theorem Edits.recalls (edits : Edits fresh now cause s t)
    (lasting : ∀ userId members, cause ≠ .call (.eraseUser userId members))
    (known : s.operations.get? key = some entry) (young : now < entry.expiresAt) :
    t.operations.get? key = some entry := by
  induction edits with
  | refl => exact known
  | tail _ last ih => exact last.recalls lasting ih young

/-- What the store answers to a command whose operation it remembers. -/
def view (s : MemoryQueueStore) : Command → Target → Reply
  | .requestCancel taskId _ _ _, _ =>
    (s.jobs.get? taskId).elim .missing fun m => .job (some m.snapshot)
  | .retryJob _ _ _ _ _, .job child => .admission ⟨.existing, some child, none⟩
  | .setLaneState lane _ _ _ _ _, _ =>
    .lane ((s.laneRecord lane (lanePolicies lane)).snapshot lane)
  | _, _ => .missing

/-- A command whose operation is remembered does nothing. -/
theorem act_remembered (noted : Noted s) {command : Command} {body : CommandBody}
    (operator : Operator command key body) (known : s.operations.get? key = some entry) :
    (act now s command).2 = s ∧ (act now s command).1 =
        if entry.fingerprint = body then s.view command entry.target
        else .conflict "operation_id_conflict" := by
  obtain ⟨targets, opened⟩ := noted key entry known
  have command_eq : s.command key body =
      if entry.fingerprint = body then .ok (some entry.target)
      else .error "operation_id_conflict" := by
    unfold MemoryQueueStore.command
    rw [known]
  cases operator with
  | cancel taskId revision actor operationId =>
    simp only [act, requestCancel, command_eq]
    by_cases same : entry.fingerprint = .cancel taskId revision
    · rw [if_pos same, if_pos same, view]
      cases s.jobs.get? taskId <;> exact ⟨rfl, rfl⟩
    · rw [if_neg same, if_neg same]
      exact ⟨rfl, rfl⟩
  | retry taskId revision actor operationId epoch =>
    simp only [act, retryJob, command_eq]
    by_cases same : entry.fingerprint = .retry taskId revision
    · rw [if_pos same, if_pos same]
      rw [same] at targets
      obtain ⟨child, target⟩ := targets.child
      rw [target]
      exact ⟨rfl, rfl⟩
    · rw [if_neg same, if_neg same]
      exact ⟨rfl, rfl⟩
  | lane lane revision admissionPaused claimPaused actor operationId =>
    simp only [act, setLaneState, command_eq]
    by_cases same : entry.fingerprint = .lane lane revision admissionPaused claimPaused
    · rw [same] at targets
      have target : entry.target = .lane lane := by
        generalize entry.target = target at targets
        cases targets
        rfl
      obtain ⟨record, found⟩ := Option.isSome_iff_exists.mp (opened lane target)
      rw [if_pos same, if_pos same]
      simp only [readLane, openLane_eq, opened_of_get? found, Option.isSome_some, if_true]
      exact ⟨trivial, rfl⟩
    · rw [if_neg same, if_neg same]
      exact ⟨rfl, rfl⟩

theorem remember_get? (s : MemoryQueueStore) (now : Time) (key : OperationKey)
    (body : CommandBody) (target : Target) :
    (s.remember now key body target).operations.get? key =
      some ⟨body, target, now + metadataRetention⟩ :=
  s.operations.get?_set_self _ _

/-- A new command that succeeds is remembered for a whole retention. -/
theorem act_new {command : Command} {body : CommandBody} (operator : Operator command key body)
    (unused : s.operations.get? key = none)
    (succeeded : (act now s command).1.succeeded = true) :
    ∃ target, (act now s command).2.operations.get? key =
      some ⟨body, target, now + metadataRetention⟩ := by
  have command_eq : s.command key body = .ok none := by
    unfold MemoryQueueStore.command
    rw [unused]
  cases operator with
  | cancel taskId revision actor operationId =>
    simp only [act, requestCancel, command_eq] at succeeded ⊢
    split at succeeded
    · cases succeeded
    · exact ⟨_, remember_get? ..⟩
  | lane lane revision admissionPaused claimPaused actor operationId =>
    simp only [act, setLaneState, command_eq, readLane, openLane_eq, Option.isSome_none,
      Bool.false_eq_true, if_false] at succeeded ⊢
    split at succeeded
    · cases succeeded
    · next current =>
        rw [if_neg current]
        exact ⟨_, remember_get? ..⟩
  | retry taskId revision actor operationId epoch =>
    simp only [act, retryJob, command_eq] at succeeded ⊢
    split at succeeded
    · cases succeeded
    · next m payload offered =>
        split at succeeded
        · cases succeeded
        · next record lane =>
            have spec := s.admit_spec now
              (retryChild m (operationKey actor operationId) payload epoch) record.policy
              m.payloadBytes
            generalize
              s.admitJob now (retryChild m (operationKey actor operationId) payload epoch)
                record.policy m.payloadBytes = outcome at spec succeeded ⊢
            obtain ⟨admission, t⟩ := outcome
            have named : admission.state = .accepted ∨ admission.state = .existing →
                ∃ accepted, admission.taskId = some accepted := by
              intro admitted
              cases spec with
              | unknownLane | differs | full | refuses =>
                rcases admitted with impossible | impossible <;> cases impossible
              | repeated | joins | accepts => exact ⟨_, rfl⟩
            dsimp only at succeeded ⊢
            by_cases admitted : admission.state = .accepted ∨ admission.state = .existing
            · rw [if_pos admitted]
              obtain ⟨accepted, same⟩ := named admitted
              simp only [same]
              split
              · exact ⟨_, remember_get? ..⟩
              · exact ⟨_, remember_get? ..⟩
            · rw [if_neg admitted] at succeeded
              exact absurd (of_decide_eq_true succeeded) admitted

/-- A command whose operation is remembered adds nothing to its sweep. -/
theorem exec_remembered (good : s.ledger.WellFormed) (noted : Noted s) {command : Command}
    {body : CommandBody} (operator : Operator command key body)
    (known : s.operations.get? key = some entry) (young : now < entry.expiresAt) :
    (s.exec now command).2 = s.swept now command ∧ (s.exec now command).1 =
        if entry.fingerprint = body then (s.swept now command).view command entry.target
        else .conflict "operation_id_conflict" := by
  have swept : Edits True now .sweep s (s.swept now command) := edits_swept good command
  exact act_remembered (swept.noted noted) operator
    (swept.recalls (fun _ _ called => by cases called) known young)

/-- A command that succeeds is remembered: as before, or for a whole retention from now on. -/
theorem exec_remembers (good : s.ledger.WellFormed) (noted : Noted s) {command : Command}
    {body : CommandBody} (operator : Operator command key body)
    (succeeded : (s.exec now command).1.succeeded = true) :
    ∃ entry, (s.exec now command).2.operations.get? key = some entry ∧ entry.fingerprint = body ∧
      (s.operations.get? key = some entry ∨ entry.expiresAt = now + metadataRetention) := by
  have swept : Edits True now .sweep s (s.swept now command) := edits_swept good command
  cases known : (s.swept now command).operations.get? key with
  | none =>
    obtain ⟨target, found⟩ := act_new operator known succeeded
    exact ⟨_, found, rfl, .inr rfl⟩
  | some entry =>
    obtain ⟨same, replied⟩ := act_remembered (swept.noted noted) operator known
    refine ⟨entry, (congrArg (fun t => Dict.get? t.operations key) same).trans known, ?_,
      .inl (swept.operation_origin known)⟩
    by_contra differs
    rw [if_neg differs] at replied
    rw [exec, replied] at succeeded
    cases succeeded

theorem owner_of_mem_userJobs {userId : Int} {id : TaskId} (listed : id ∈ s.userJobs userId) :
    ∃ m, s.jobs.get? id = some m ∧ m.userId = userId := by
  have owned := (List.mem_filter.mp listed).2
  cases found : s.jobs.get? id with
  | none => rw [found] at owned; cases owned
  | some m =>
    rw [found] at owned
    exact ⟨m, rfl, of_decide_eq_true owned⟩

/-- The job an operation is remembered with is one of the user. -/
def ErasesOperation (s : MemoryQueueStore) (userId : Int) (key : OperationKey) : Prop :=
  ∃ entry taskId m, s.operations.get? key = some entry ∧ entry.target = .job taskId ∧
    s.jobs.get? taskId = some m ∧ m.userId = userId

/-- The erasure of a user forgets the operations on the jobs of that user only. -/
theorem eraseUser_recalls {userId : Int} (spared : ¬ s.ErasesOperation userId key)
    (known : s.operations.get? key = some entry) :
    (s.eraseUser userId).operations.get? key = some entry := by
  have through : ∀ (ids : List TaskId) (u : MemoryQueueStore),
      (ids.foldl eraseJob u).operations = u.operations := by
    intro ids
    induction ids with
    | nil => exact fun u => rfl
    | cons id rest ih => exact fun u => (ih _).trans (u.eraseJob_operations id).1
  unfold eraseUser
  dsimp only
  rw [Dict.get?_retain_eq_some, through]
  refine ⟨known, ?_⟩
  cases target : entry.target with
  | lane lane => rfl
  | job taskId =>
    simp only [Bool.not_eq_true', List.contains_eq_mem, decide_eq_false_iff_not]
    intro listed
    obtain ⟨m, found, owner⟩ := owner_of_mem_userJobs listed
    exact spared ⟨entry, taskId, m, known, target, found, owner⟩

/-- A command that erases no user keeps what it does not make too old. -/
theorem exec_recalls (good : s.ledger.WellFormed) (command : Command)
    (spared : ∀ userId members, command = .eraseUser userId members →
      ¬ s.ErasesOperation userId key)
    (known : s.operations.get? key = some entry) (young : now < entry.expiresAt) :
    (s.exec now command).2.operations.get? key = some entry := by
  have swept : Edits True now .sweep s (s.swept now command) := edits_swept good command
  have kept := swept.recalls (fun _ _ called => by cases called) known young
  by_cases erases : ∃ userId members, command = .eraseUser userId members
  · obtain ⟨userId, members, rfl⟩ := erases
    exact eraseUser_recalls (spared userId members rfl) known
  · refine (edits_act (swept.wellFormed good) command).recalls ?_ kept young
    rintro userId members called
    cases called
    exact erases ⟨userId, members, rfl⟩

theorem exec_noted (good : s.ledger.WellFormed) (noted : Noted s) (command : Command) :
    Noted (s.exec now command).2 := by
  have swept : Edits True now .sweep s (s.swept now command) := edits_swept good command
  exact (edits_act (swept.wellFormed good) command).noted (swept.noted noted)

end MemoryQueueStore

namespace Script

variable {fresh : Db → TaskId → Prop} {now : Time} {cause : Cause} {db after : Db}
variable {key : OperationKey} {entry : Operation}

/-- What every remembered operation satisfies. -/
def Noted (db : Db) : Prop :=
  ∀ key entry, db.operation.get? key = some entry → entry.fingerprint.Targets entry.target

theorem Noted.congr (noted : Noted db) (operation : after.operation = db.operation) :
    Noted after := by
  unfold Noted
  rw [operation]
  exact noted

theorem requeueRetry_operation (db : Db) (now : Time) (m : ScriptJob) (delay : Time)
    (reason : Option String) : (requeueRetry db now m delay reason).operation = db.operation := by
  unfold requeueRetry
  dsimp only [save]
  split <;> rfl

theorem start_operation (db : Db) (now : Time) (lane : Lane) (m : ScriptJob)
    (ownerToken : String) : (start db now lane m ownerToken).operation = db.operation := by
  unfold start extendKeys
  dsimp only [save]
  split <;> rfl

theorem accept_operation (db : Db) (now : Time) (submission : Submission) (policy : QueuePolicy)
    (lane : LaneRecord) : (accept db now submission policy lane).operation = db.operation := by
  unfold accept
  dsimp only
  split <;> rfl

theorem metadataStep_operation (db : Db) (id : TaskId) :
    (metadataStep db id).operation = db.operation := by
  unfold metadataStep
  cases db.owners.get? id <;> rfl

theorem eraseStep_operation (db : Db) (userId : Int) (id : TaskId) :
    ∃ gone : List OperationKey, (eraseStep userId db id).operation =
      gone.foldl Dict.del db.operation := by
  unfold eraseStep
  cases db.jobs.get? id with
  | none | some => exact ⟨_, rfl⟩

theorem Edit.noted (edit : Edit fresh now cause db after) (noted : Noted db) : Noted after := by
  cases edit with
  | expires =>
    intro other entry found
    exact noted other entry ((Dict.get?_retain_eq_some _ _ _ _).mp found).1
  | endsUnpaid | ends => exact noted.congr (terminal_operation ..)
  | forgets => exact noted.congr (metadataStep_operation ..)
  | accepts | succeeds => exact noted.congr (accept_operation ..)
  | starts => exact noted.congr (start_operation ..)
  | requeuesRetry => exact noted.congr (requeueRetry_operation ..)
  | @remembers command key body target commanded _ _ _ targets =>
    intro other entry found
    change (db.operation.set key _).get? other = some entry at found
    rw [Dict.get?_set] at found
    split at found
    · cases found
      exact targets
    · exact noted other entry found
  | @erases userId members id _ =>
    obtain ⟨gone, same⟩ := eraseStep_operation db userId id
    intro other entry found
    rw [same] at found
    have kept := Dict.get?_foldl_del gone (fun key => key) db.operation other
    rw [kept] at found
    split at found
    · cases found
    · exact noted other entry found
  | _ => exact noted.congr rfl

/-- Only an erasure or its age makes the keys forget an operation. -/
theorem Edit.recalls (edit : Edit fresh now cause db after)
    (lasting : ∀ userId members, cause ≠ .call (.eraseUser userId members))
    (known : db.operation.get? key = some entry) (young : now < entry.expiresAt) :
    after.operation.get? key = some entry := by
  cases edit with
  | expires => exact (Dict.get?_retain_eq_some _ _ _ _).mpr ⟨known, decide_eq_true young⟩
  | endsUnpaid | ends => rw [terminal_operation]; exact known
  | forgets => rw [metadataStep_operation]; exact known
  | accepts => rw [taken, accept_operation]; exact known
  | succeeds => exact (congrArg (Dict.get? · key) (accept_operation ..)).trans known
  | starts => rw [start_operation]; exact known
  | requeuesRetry => rw [requeueRetry_operation]; exact known
  | @remembers command other body target commanded _ _ unused _ =>
    have apart : key ≠ other := by
      rintro rfl
      rw [unused] at known
      cases known
    exact (Dict.get?_set_ne _ _ apart).trans known
  | erases _ called => exact absurd called (lasting _ _)
  | _ => exact known

/-- A sweep remembers no operation of its own. -/
theorem Edit.operation_origin (edit : Edit fresh now .sweep db after)
    (known : after.operation.get? key = some entry) : db.operation.get? key = some entry := by
  cases edit with
  | expires => exact ((Dict.get?_retain_eq_some _ _ _ _).mp known).1
  | endsUnpaid | ends => rwa [terminal_operation] at known
  | forgets => rwa [metadataStep_operation] at known
  | accepts called | succeeds called | starts called => cases called
  | requeuesRetry => rwa [requeueRetry_operation] at known
  | remembers _ called => cases called
  | erases _ called => cases called
  | _ => exact known

theorem Edits.operation_origin (edits : Edits fresh now .sweep db after)
    (known : after.operation.get? key = some entry) : db.operation.get? key = some entry := by
  induction edits with
  | refl => exact known
  | tail _ last ih => exact ih (last.operation_origin known)

theorem Edits.noted (edits : Edits fresh now cause db after) (noted : Noted db) :
    Noted after := by
  induction edits with
  | refl => exact noted
  | tail _ last ih => exact last.noted ih

theorem Edits.recalls (edits : Edits fresh now cause db after)
    (lasting : ∀ userId members, cause ≠ .call (.eraseUser userId members))
    (known : db.operation.get? key = some entry) (young : now < entry.expiresAt) :
    after.operation.get? key = some entry := by
  induction edits with
  | refl => exact known
  | tail _ last ih => exact last.recalls lasting ih young

/-- What the script answers to a command whose operation it remembers. -/
def view (db : Db) : Command → Target → Reply
  | .requestCancel taskId _ _ _, _ =>
    (db.jobs.get? taskId).elim .missing fun m => .job (some m.snapshot)
  | .retryJob _ _ _ _ _, .job child => .admission ⟨.existing, some child, none⟩
  | .setLaneState lane _ _ _ _ _, _ =>
    .lane ((laneState db lane (lanePolicies lane)).snapshot lane)
  | _, _ => .missing

/-- A command whose operation is remembered does nothing. -/
theorem act_remembered (noted : Noted db) {command : Command} {body : CommandBody}
    (operator : Operator command key body) (known : db.operation.get? key = some entry) :
    (act now db command).2 = db ∧ (act now db command).1 =
        if entry.fingerprint = body then view db command entry.target
        else .conflict "operation_id_conflict" := by
  have targets := noted key entry known
  have command_eq : Script.command db key body =
      if entry.fingerprint = body then .ok (some entry.target)
      else .error "operation_id_conflict" := by
    unfold Script.command
    rw [known]
  cases operator with
  | cancel taskId revision actor operationId =>
    simp only [act, cancel, command_eq]
    by_cases same : entry.fingerprint = .cancel taskId revision
    · rw [if_pos same, if_pos same, view]
      cases db.jobs.get? taskId <;> exact ⟨rfl, rfl⟩
    · rw [if_neg same, if_neg same]
      exact ⟨rfl, rfl⟩
  | retry taskId revision actor operationId epoch =>
    simp only [act, retry, command_eq]
    by_cases same : entry.fingerprint = .retry taskId revision
    · rw [if_pos same, if_pos same]
      rw [same] at targets
      obtain ⟨child, target⟩ := targets.child
      rw [target]
      exact ⟨rfl, rfl⟩
    · rw [if_neg same, if_neg same]
      exact ⟨rfl, rfl⟩
  | lane lane revision admissionPaused claimPaused actor operationId =>
    simp only [act, setLane, command_eq]
    by_cases same : entry.fingerprint = .lane lane revision admissionPaused claimPaused
    · rw [if_pos same, if_pos same]
      exact ⟨rfl, rfl⟩
    · rw [if_neg same, if_neg same]
      exact ⟨rfl, rfl⟩

theorem remember_get? (db : Db) (now : Time) (key : OperationKey) (body : CommandBody)
    (target : Target) (commanded : Option TaskId) :
    (remember db now key body target commanded).operation.get? key =
      some ⟨body, target, now + metadataRetention⟩ :=
  db.operation.get?_set_self _ _

/-- A new command that succeeds is remembered for a whole retention. -/
theorem act_new {command : Command} {body : CommandBody} (operator : Operator command key body)
    (unused : db.operation.get? key = none)
    (succeeded : (act now db command).1.succeeded = true) :
    ∃ target, (act now db command).2.operation.get? key =
      some ⟨body, target, now + metadataRetention⟩ := by
  have command_eq : Script.command db key body = .ok none := by
    unfold Script.command
    rw [unused]
  cases operator with
  | cancel taskId revision actor operationId =>
    simp only [act, cancel, command_eq] at succeeded ⊢
    split at succeeded
    · cases succeeded
    · exact ⟨_, remember_get? ..⟩
  | lane lane revision admissionPaused claimPaused actor operationId =>
    simp only [act, setLane, command_eq] at succeeded ⊢
    split at succeeded
    · cases succeeded
    · next current =>
        rw [if_neg current]
        exact ⟨_, remember_get? ..⟩
  | retry taskId revision actor operationId epoch =>
    simp only [act, retry, command_eq] at succeeded ⊢
    split at succeeded
    · cases succeeded
    · next m selected =>
        split at succeeded
        · cases succeeded
        · next payload offered =>
            have spec := admission_spec db now
              (retryChild m (operationKey actor operationId) (.retry taskId revision) payload
                epoch) (lanePolicies m.lane) (if m.payloadAccounted then m.payloadBytes else 0)
            generalize admission db now
              (retryChild m (operationKey actor operationId) (.retry taskId revision) payload
                epoch) (lanePolicies m.lane) (if m.payloadAccounted then m.payloadBytes else 0) =
              outcome at spec succeeded ⊢
            obtain ⟨result, middle⟩ := outcome
            have named : result.state = .accepted ∨ result.state = .existing →
                ∃ accepted, result.taskId = some accepted := by
              intro admitted
              cases spec with
              | differs | full | refuses =>
                rcases admitted with impossible | impossible <;> cases impossible
              | repeated | joins | accepts => exact ⟨_, rfl⟩
            dsimp only at succeeded ⊢
            by_cases admitted : result.state = .accepted ∨ result.state = .existing
            · rw [if_pos admitted]
              obtain ⟨accepted, same⟩ := named admitted
              simp only [same]
              split
              · exact ⟨_, remember_get? ..⟩
              · exact ⟨_, remember_get? ..⟩
            · rw [if_neg admitted] at succeeded
              exact absurd (of_decide_eq_true succeeded) admitted

theorem exec_operator {command : Command} {body : CommandBody}
    (operator : Operator command key body) :
    exec now db command = act now (sweep db now) command := by
  cases operator <;> simp only [exec, answered]

/-- A command whose operation is remembered adds nothing to its sweep. -/
theorem exec_remembered (good : (ledger db).WellFormed) (noted : Noted db) {command : Command}
    {body : CommandBody} (operator : Operator command key body)
    (known : db.operation.get? key = some entry) (young : now < entry.expiresAt) :
    (exec now db command).2 = sweep db now ∧ (exec now db command).1 =
        if entry.fingerprint = body then view (sweep db now) command entry.target
        else .conflict "operation_id_conflict" := by
  have swept : Edits (fun _ _ => True) now .sweep db (sweep db now) := edits_sweep good
  rw [exec_operator operator]
  exact act_remembered (swept.noted noted) operator
    (swept.recalls (fun _ _ called => by cases called) known young)

/-- A command that succeeds is remembered: as before, or for a whole retention from now on. -/
theorem exec_remembers (good : (ledger db).WellFormed) (noted : Noted db) {command : Command}
    {body : CommandBody} (operator : Operator command key body)
    (succeeded : (exec now db command).1.succeeded = true) :
    ∃ entry, (exec now db command).2.operation.get? key = some entry ∧ entry.fingerprint = body ∧
      (db.operation.get? key = some entry ∨ entry.expiresAt = now + metadataRetention) := by
  have swept : Edits (fun _ _ => True) now .sweep db (sweep db now) := edits_sweep good
  rw [exec_operator operator] at succeeded ⊢
  have clean := swept.noted noted
  have origin := fun entry => @Edits.operation_origin _ _ _ _ key entry swept
  generalize sweep db now = middle at clean origin succeeded ⊢
  cases known : middle.operation.get? key with
  | none =>
    obtain ⟨target, found⟩ := act_new operator known succeeded
    exact ⟨_, found, rfl, .inr rfl⟩
  | some entry =>
    obtain ⟨same, replied⟩ := act_remembered clean operator known
    refine ⟨entry, (congrArg (fun t => Dict.get? t.operation key) same).trans known, ?_,
      .inl (origin entry known)⟩
    by_contra differs
    rw [if_neg differs] at replied
    rw [replied] at succeeded
    cases succeeded

theorem view_cancel {taskId : TaskId} {m : ScriptJob} (found : db.jobs.get? taskId = some m)
    (revision : Nat) (actor operationId : String) (target : Target) :
    view db (.requestCancel taskId revision actor operationId) target = .job (some m.snapshot) := by
  rw [view, found]
  rfl

theorem exec_readLane (lane : Lane) (revision : Nat) (admissionPaused claimPaused : Bool)
    (actor operationId : String) (target : Target) :
    (exec now db (.readLane lane)).1 = view (sweep db now)
        (.setLaneState lane revision admissionPaused claimPaused actor operationId) target := by
  simp only [exec, answered, act, view]

/-- The operation is listed under a job that is listed for the user. -/
def ErasesOperation (db : Db) (userId : Int) (key : OperationKey) : Prop :=
  ∃ id ∈ db.user userId, key ∈ (db.commands.get? id).getD []

/-- One step of an erasure forgets the operations listed under its job only. -/
theorem eraseStep_recalls {userId : Int} {id : TaskId}
    (spared : key ∉ (db.commands.get? id).getD []) :
    (eraseStep userId db id).operation.get? key = db.operation.get? key ∧
      ∀ other, (eraseStep userId db id).commands.get? other = none ∨
        (eraseStep userId db id).commands.get? other = db.commands.get? other := by
  have read : ∀ keep : Db, keep.operation = db.operation → keep.commands = db.commands →
      (((keep.commands.get? id).getD []).foldl Dict.del keep.operation).get? key =
          db.operation.get? key ∧
        ∀ other, (keep.commands.del id).get? other = none ∨
          (keep.commands.del id).get? other = db.commands.get? other := by
    intro keep operation commands
    rw [operation, commands]
    constructor
    · rw [Dict.get?_foldl_del _ fun each => each, List.map_id', if_neg spared]
    · intro other
      rw [Dict.get?_del]
      split
      · exact .inl rfl
      · exact .inr rfl
  unfold eraseStep
  cases db.jobs.get? id with
  | none =>
    obtain ⟨same, fewer⟩ := read db rfl rfl
    exact ⟨same, fewer⟩
  | some m =>
    obtain ⟨same, fewer⟩ := read (eraseRecord db m id) rfl rfl
    exact ⟨same, fewer⟩

theorem erase_recalls {userId : Int} (members : List TaskId)
    (spared : ¬ ErasesOperation db userId key) :
    (erase db userId members).2.operation.get? key = db.operation.get? key := by
  have through : ∀ (ids : List TaskId) (table : Db),
      (∀ id ∈ ids, key ∉ (table.commands.get? id).getD []) →
      (ids.foldl (eraseStep userId) table).operation.get? key = table.operation.get? key := by
    intro ids
    induction ids with
    | nil => exact fun _ _ => rfl
    | cons id rest ih =>
      intro table clear
      obtain ⟨same, fewer⟩ := @eraseStep_recalls table key userId id
        (clear id List.mem_cons_self)
      refine (ih _ fun other listed => ?_).trans same
      rcases fewer other with gone | kept
      · rw [gone]
        exact List.not_mem_nil
      · rw [kept]
        exact clear other (List.mem_cons_of_mem _ listed)
  refine through _ db fun id drawn held => spared ⟨id, ?_, held⟩
  have kept := (List.mem_filter.mp (List.mem_of_mem_take drawn)).2
  rwa [List.contains_eq_mem, decide_eq_true_eq] at kept

/-- A command that erases no user keeps what it does not make too old. -/
theorem exec_recalls (good : (ledger db).WellFormed) (command : Command)
    (spared : ∀ userId members, command = .eraseUser userId members →
      ¬ ErasesOperation (sweep db now) userId key)
    (known : db.operation.get? key = some entry) (young : now < entry.expiresAt) :
    (exec now db command).2.operation.get? key = some entry := by
  rcases exec_cases now db command with ⟨reply, same⟩ | ⟨_, same⟩
  · rw [same]
    exact known
  · rw [same]
    let anyone : Db → TaskId → Prop := fun _ _ => True
    have swept : Edits anyone now .sweep db (sweep db now) := edits_sweep good
    have kept := swept.recalls (fun _ _ called => by cases called) known young
    have clean := swept.wellFormed good
    generalize sweep db now = after at spared clean kept
    by_cases erases : ∃ userId members, command = .eraseUser userId members
    · obtain ⟨userId, members, rfl⟩ := erases
      exact (erase_recalls members (spared userId members rfl)).trans kept
    · have own : Edits anyone now (.call command) after (act now after command).2 :=
        edits_act clean command fun _ _ => trivial
      refine own.recalls ?_ kept young
      rintro userId members called
      cases called
      exact erases ⟨userId, members, rfl⟩

theorem exec_noted (good : (ledger db).WellFormed) (noted : Noted db) (command : Command) :
    Noted (exec now db command).2 := by
  rcases exec_cases now db command with ⟨reply, same⟩ | ⟨_, same⟩
  · rw [same]
    exact noted
  · rw [same]
    let anyone : Db → TaskId → Prop := fun _ _ => True
    have swept : Edits anyone now .sweep db (sweep db now) := edits_sweep good
    have own : Edits anyone now (.call command) (sweep db now)
        (act now (sweep db now) command).2 :=
      edits_act (swept.wellFormed good) command fun _ _ => trivial
    exact own.noted (swept.noted noted)

end Script

namespace Backend

variable {backend : Backend} {state : backend.State} {key : OperationKey} {entry : Operation}

/-- The operation remembered under a key; one too old may wait for a sweep. -/
def operation : (backend : Backend) → backend.State → OperationKey → Option Operation
  | .memory, state, key => (MemoryMachine.store state).operations.get? key
  | .redis, state, key => (ScriptMachine.db state).operation.get? key

/-- What holds of the remembered operations in every state a run reaches. -/
def Noted : (backend : Backend) → backend.State → Prop
  | .memory, state => MemoryQueueStore.Noted (MemoryMachine.store state)
  | .redis, state => Script.Noted (ScriptMachine.db state)

/-- The step is no erasure of a user under whose jobs the operation is listed. -/
def Spares : (backend : Backend) → OperationKey → backend.State → Label → Prop
  | .memory, key, state, label => ∀ userId members, label = .call (.eraseUser userId members) →
      ¬ (MemoryMachine.store state).ErasesOperation userId key
  | .redis, key, state, label => ∀ userId members, label = .call (.eraseUser userId members) →
      ¬ Script.ErasesOperation
        (Script.sweep (ScriptMachine.db state) (ScriptMachine.clock state)) userId key

theorem Noted.step (sound : backend.Sound state) (noted : backend.Noted state) (label : Label) :
    backend.Noted (backend.step state label) := by
  cases backend with
  | memory =>
    cases label with
    | advance elapsed => exact noted
    | call command => exact MemoryQueueStore.exec_noted sound noted command
  | redis =>
    cases label with
    | advance elapsed => exact noted
    | call command => exact Script.exec_noted sound.1 noted command

theorem noted_after (backend : Backend) (start : Time) (labels : List Label) :
    backend.Noted (backend.after start labels) := by
  have both : backend.Sound (backend.after start labels) ∧
      backend.Noted (backend.after start labels) := by
    refine Run.run_keeps (fun state => backend.Sound state ∧ backend.Noted state)
      (fun state label good => ⟨good.1.step label, good.2.step good.1 label⟩)
      ⟨sound_initial backend start, ?_⟩ labels
    cases backend with
    | memory | redis =>
      intro key entry found
      cases found
  exact both.2

theorem operation_step (sound : backend.Sound state) {label : Label}
    (spared : backend.Spares key state label)
    (known : backend.operation state key = some entry)
    (young : backend.clock state < entry.expiresAt) :
    backend.operation (backend.step state label) key = some entry := by
  cases backend with
  | memory =>
    cases label with
    | advance elapsed => exact known
    | call command =>
      refine MemoryQueueStore.exec_recalls sound command ?_ known young
      rintro userId members rfl
      exact spared userId members rfl
  | redis =>
    cases label with
    | advance elapsed => exact known
    | call command =>
      refine Script.exec_recalls sound.1 command ?_ known young
      rintro userId members rfl
      exact spared userId members rfl

theorem operation_run (sound : backend.Sound state) {labels : List Label}
    (spared : Run.Along backend.step (backend.Spares key) state labels)
    (known : backend.operation state key = some entry)
    (young : backend.clock (Run.run backend.step state labels) < entry.expiresAt) :
    backend.operation (Run.run backend.step state labels) key = some entry := by
  induction labels generalizing state with
  | nil => exact known
  | cons label rest ih =>
    exact ih (sound.step label) spared.2
      (operation_step sound spared.1 known
        ((clock_le_run state (label :: rest)).trans_lt young)) young

/-- The view of its target that a replayed command returns. -/
def Shows (backend : Backend) (state : backend.State) (command : Command) (target : Target) :
    Prop :=
  match command with
  | .requestCancel taskId _ _ _ =>
    ∀ m, backend.record (backend.swept state) taskId = some m →
      backend.reply state command = .job (some m.snapshot)
  | .retryJob _ _ _ _ _ =>
    ∃ child, target = .job child ∧
      backend.reply state command = .admission ⟨.existing, some child, none⟩
  | .setLaneState lane _ _ _ _ _ =>
    backend.reply state command = backend.reply state (.readLane lane)
  | _ => True

/--
The command has no effect.  With the arguments of the remembered operation it
returns the view of the target, with any others it is refused.
-/
def Replays (backend : Backend) (state : backend.State) (command : Command) (body : CommandBody)
    (entry : Operation) : Prop :=
  backend.Unchanged state command ∧
    if entry.fingerprint = body then backend.Shows state command entry.target
    else backend.reply state command = .conflict "operation_id_conflict"

theorem record_redis (clock : Time) (db : Db) (id : TaskId) :
    record .redis (ScriptMachine.mk clock db : State .redis) id =
      (Script.ledger db).records.get? id := rfl

theorem replays_memory (state : State .memory) (sound : Backend.memory.Sound state)
    (noted : Backend.memory.Noted state) {command : Command} {body : CommandBody}
    (operator : Operator command key body)
    (known : Backend.memory.operation state key = some entry)
    (young : Backend.memory.clock state < entry.expiresAt) :
    Backend.memory.Replays state command body entry := by
  obtain ⟨same, replied⟩ := MemoryQueueStore.exec_remembered sound noted operator known young
  have targets := (noted key entry known).1
  have stepped := congrArg (MemoryMachine.mk (MemoryMachine.clock state)) same
  have answer : reply .memory state command =
      if entry.fingerprint = body then
        ((MemoryMachine.store state).swept (MemoryMachine.clock state) command).view command
          entry.target
      else .conflict "operation_id_conflict" := replied
  constructor
  · cases operator with
    | cancel | retry => exact .inl stepped
    | lane lane revision admissionPaused claimPaused actor operationId => exact .inr stepped
  · by_cases repeated : entry.fingerprint = body
    · rw [if_pos repeated] at answer ⊢
      rw [repeated] at targets
      cases operator with
      | cancel taskId revision actor operationId =>
        intro m found
        obtain ⟨r, stored, rfl⟩ := MemoryQueueStore.get?_of_ledger found
        exact answer.trans (congrArg (Option.elim · _ _) stored)
      | retry taskId revision actor operationId epoch =>
        obtain ⟨child, target⟩ := targets.child
        rw [target] at answer
        exact ⟨child, target, answer⟩
      | lane lane revision admissionPaused claimPaused actor operationId =>
        have read : reply .memory state (.readLane lane) =
            .lane (((MemoryMachine.store state).openLane lane (lanePolicies lane)).1.snapshot
              lane) := rfl
        rw [MemoryQueueStore.openLane_eq] at read
        exact answer.trans read.symm
    · rw [if_neg repeated] at answer ⊢
      exact answer

theorem replays_redis (state : State .redis) (sound : Backend.redis.Sound state)
    (noted : Backend.redis.Noted state) {command : Command} {body : CommandBody}
    (operator : Operator command key body)
    (known : Backend.redis.operation state key = some entry)
    (young : Backend.redis.clock state < entry.expiresAt) :
    Backend.redis.Replays state command body entry := by
  obtain ⟨same, replied⟩ := Script.exec_remembered sound.1 noted operator known young
  have targets := noted key entry known
  have stepped : Backend.redis.step state (.call command) =
      { clock := ScriptMachine.clock state
        db := Script.sweep (ScriptMachine.db state) (ScriptMachine.clock state) } :=
    congrArg (ScriptMachine.mk (ScriptMachine.clock state)) same
  have answer := (reply_redis state command).trans replied
  constructor
  · exact .inl (stepped.trans (ScriptMachine.step_sweep state).symm)
  · by_cases repeated : entry.fingerprint = body
    · rw [if_pos repeated] at answer ⊢
      rw [repeated] at targets
      cases operator with
      | cancel taskId revision actor operationId =>
        intro m found
        have swept : Backend.redis.swept state =
            { clock := ScriptMachine.clock state
              db := Script.sweep (ScriptMachine.db state) (ScriptMachine.clock state) } :=
          ScriptMachine.step_sweep state
        rw [swept, record_redis] at found
        obtain ⟨r, stored, rfl⟩ := Script.get?_of_ledger found
        exact answer.trans (Script.view_cancel stored ..)
      | retry taskId revision actor operationId epoch =>
        obtain ⟨child, target⟩ := targets.child
        rw [target] at answer
        exact ⟨child, target, answer⟩
      | lane lane revision admissionPaused claimPaused actor operationId =>
        have read := (reply_redis state (.readLane lane)).trans
          (Script.exec_readLane lane revision admissionPaused claimPaused actor operationId
            entry.target)
        exact answer.trans read.symm
    · rw [if_neg repeated] at answer ⊢
      exact answer

/-- A command whose operation is remembered is a replay. -/
theorem replays (sound : backend.Sound state) (noted : backend.Noted state) {command : Command}
    {body : CommandBody} (operator : Operator command key body)
    (known : backend.operation state key = some entry)
    (young : backend.clock state < entry.expiresAt) :
    backend.Replays state command body entry := by
  cases backend with
  | memory => exact replays_memory state sound noted operator known young
  | redis => exact replays_redis state sound noted operator known young

theorem remembers_step (sound : backend.Sound state) (noted : backend.Noted state)
    {command : Command} {body : CommandBody} (operator : Operator command key body)
    (succeeded : (backend.reply state command).succeeded = true) :
    ∃ entry, backend.operation (backend.step state (.call command)) key = some entry ∧
      entry.fingerprint = body ∧ (backend.operation state key = some entry ∨
        entry.expiresAt = backend.clock state + metadataRetention) := by
  cases backend with
  | memory => exact MemoryQueueStore.exec_remembers sound noted operator succeeded
  | redis =>
    rw [reply_redis] at succeeded
    exact Script.exec_remembers sound.1 noted operator succeeded

/--
What the client of a Redis retry returns.  It reads the record of the job
first; between the read and the retry other parties may take their steps.
-/
def retryClient (state : State .redis) (taskId : TaskId) (revision : Nat)
    (actor operationId : String) (epoch : Option Int) (between : List Label) : Reply :=
  match Backend.redis.reply state (.privateRecord taskId) with
  | .record (some _) =>
    Backend.redis.reply
      (Run.run Backend.redis.step state (.call (.privateRecord taskId) :: between))
      (.retryJob taskId revision actor operationId epoch)
  | _ => .conflict "retry_not_available"

/-- A submission, of which the tests below cancel the job. -/
def submitted : List Label :=
  [.call (.admitJob
    { taskId := .submission 7 "a", kind := "mail", lane := "deferred", userId := 7,
      payload := .text "x", idempotencyKey := .given "a" } defaultQueuePolicy)]

/-- The cancel of the submitted job, and of its settled delivery. -/
def cancelSubmitted (revision : Nat) : Command :=
  .requestCancel (.submission 7 "a") revision "operator" "first"

/-- A successful command repeated at any later time adds nothing to its sweep. -/
def SoleEffect (backend : Backend) : Prop :=
  ∀ labels further command key body, Operator command key body →
    (backend.reply (backend.after 0 labels) command).succeeded = true →
    backend.Unchanged (backend.after 0 (labels ++ [.call command] ++ further)) command

/-- A successful command repeated at any later time finds its target. -/
def TargetFound (backend : Backend) : Prop :=
  ∀ labels further command key body, Operator command key body →
    (backend.reply (backend.after 0 labels) command).succeeded = true →
    backend.reply (backend.after 0 (labels ++ [.call command] ++ further)) command ≠ .missing

/-- The submission again, a day after it was cancelled. -/
def resubmitted : List Label := .advance 86400000 :: submitted

/-- An hour after the delivery. -/
def settledHour : List Label := settledDelivery ++ [.advance 3600000]

theorem not_soleEffect
    (cancelled : (backend.reply (backend.after 0 submitted) (cancelSubmitted 1)).succeeded = true)
    (before : (backend.record (backend.after 0
      (submitted ++ [.call (cancelSubmitted 1)] ++ resubmitted)) (.submission 7 "a")).map
        (fun m => m.state) = some .queued)
    (swept : (backend.record (backend.swept (backend.after 0
      (submitted ++ [.call (cancelSubmitted 1)] ++ resubmitted))) (.submission 7 "a")).map
        (fun m => m.state) = some .queued)
    (stepped : (backend.record (backend.step (backend.after 0
      (submitted ++ [.call (cancelSubmitted 1)] ++ resubmitted)) (.call (cancelSubmitted 1)))
        (.submission 7 "a")).map (fun m => m.state) = some .cancelled) :
    ¬ backend.SoleEffect := by
  intro sole
  rcases sole submitted resubmitted (cancelSubmitted 1) _ _ (.cancel _ _ _ _) cancelled with
    same | same
  · rw [same, swept] at stepped
    cases stepped
  · rw [same, before] at stepped
    cases stepped

theorem not_targetFound
    (cancelled : (backend.reply (backend.after 0 settledHour) (cancelSubmitted 3)).succeeded = true)
    (lost : (match backend.reply (backend.after 0
        (settledHour ++ [.call (cancelSubmitted 3)] ++ [.advance 82800000]))
        (cancelSubmitted 3) with
      | .missing => true
      | _ => false) = true) :
    ¬ backend.TargetFound := by
  intro found
  have answered := found settledHour [.advance 82800000] (cancelSubmitted 3) _ _
    (.cancel _ _ _ _) cancelled
  generalize backend.reply _ _ = reply at lost answered
  cases reply with
  | missing => exact answered rfl
  | _ => cases lost

end Backend

end BobbyBotique.Queue
