import BobbyBotique.Broadcast.Counters

/-!
# The open counters of a batch

The counters of pending and started recipients, apart from the counters of what is settled:
they follow the open rows also where settled rows are gone.  A transaction may raise here,
and is then rolled back.
-/

namespace BobbyBotique.Broadcast

/-! ## The invariant -/

/-- The two open counters of a batch against its rows, `slack` rows before they are inserted. -/
structure Tracked (rows : Rows) (id : BatchId) (batch : Batch) (slack : Int) : Prop where
  pending : batch.pending = number rows id (inState .pending) + slack
  started : batch.started = number rows id (inState .started)
  unclaimed : batch.state = .draft ∨ batch.state = .queued → batch.started = 0
  closed : batch.state = .finished → batch.pending = 0 ∧ batch.started = 0

/-- The numbers of the open rows of a batch are the same. -/
structure Steady (rows next : Rows) (id : BatchId) : Prop where
  pending : number next id (inState .pending) = number rows id (inState .pending)
  started : number next id (inState .started) = number rows id (inState .started)

theorem Steady.refl (rows : Rows) (id : BatchId) : Steady rows rows id := ⟨rfl, rfl⟩

theorem Steady.of_forall {rows next : Rows} {id : BatchId}
    (same : ∀ test, number next id test = number rows id test) : Steady rows next id :=
  ⟨same _, same _⟩

theorem Tracked.congr {rows next : Rows} {id : BatchId} {batch : Batch} {slack : Int}
    (tracked : Tracked rows id batch slack) (steady : Steady rows next id) :
    Tracked next id batch slack where
  pending := by rw [steady.pending, tracked.pending]
  started := by rw [steady.started, tracked.started]
  unclaimed := tracked.unclaimed
  closed := tracked.closed

/-- A batch with a started row is neither unclaimed nor finished. -/
theorem Tracked.running {rows : Rows} {id : BatchId} {batch : Batch} {left : Int}
    {recipient : RecipientId}
    {row : Recipient} (tracked : Tracked rows id batch left)
    (found : rows.get? (id, recipient) = some row) (started : row.state = .started) :
    batch.state = .running := by
  have one : 0 < number rows id (inState .started) := number_pos found (beq_iff_eq.mpr started)
  have count := tracked.started
  cases state : batch.state with
  | draft =>
    have none := tracked.unclaimed (.inl state)
    omega
  | queued =>
    have none := tracked.unclaimed (.inr state)
    omega
  | running => rfl
  | finished =>
    have none := tracked.closed state
    omega

namespace Journal

variable {journal : Journal} {id : BatchId} {slack further : BatchId → Int}

theorem taskTaken_eq_false {task : Option String} :
    journal.taskTaken id task = false ↔ ∀ other batch, journal.batches.get? other = some batch →
      other ≠ id → batch.taskId = task → task = none := by
  unfold taskTaken
  constructor
  · intro free other batch found apart same
    cases task with
    | none => rfl
    | some text =>
      simp only [Option.isSome_some, Bool.true_and, List.any_eq_false] at free
      have clash := free (other, batch) ((journal.batches.mem_items_iff other batch).mpr found)
      simp [apart, same] at clash
  · intro free
    cases task with
    | none => rfl
    | some text =>
      simp only [Option.isSome_some, Bool.true_and, List.any_eq_false]
      rintro ⟨other, batch⟩ member
      have found := (journal.batches.mem_items_iff other batch).mp member
      by_cases apart : other = id
      · simp [apart]
      · have different : batch.taskId ≠ some text := fun same =>
          nomatch free other batch found apart same
        simp [different]

/-- Every row has its batch, every batch meets its constraints, and its open counters are
the numbers of its open rows, up to the slack. -/
structure Watched (journal : Journal) (slack : BatchId → Int) : Prop where
  placed : ∀ key row, journal.recipients.get? key = some row →
    ∃ batch, journal.batches.get? key.1 = some batch
  checked : ∀ id batch, journal.batches.get? id = some batch → batch.checks = true
  named : ∀ id batch, journal.batches.get? id = some batch →
    journal.taskTaken id batch.taskId = false
  tracked : ∀ id batch, journal.batches.get? id = some batch →
    Tracked journal.recipients id batch (slack id)

/-- One batch and its rows change, within the constraints. -/
theorem Watched.change {batch : Batch} {rows : Rows} {attempts : Dict AttemptId Attempt}
    (watched : Watched journal slack) (checks : batch.checks = true)
    (free : journal.taskTaken id batch.taskId = false)
    (placed : ∀ key row, rows.get? key = some row →
      key.1 = id ∨ ∃ before, journal.recipients.get? key = some before)
    (others : ∀ other, other ≠ id →
      further other = slack other ∧ Steady journal.recipients rows other)
    (tracked : Tracked rows id batch (further id)) :
    Watched ⟨journal.batches.set id batch, rows, attempts⟩ further where
  placed key row found := by
    rw [Dict.get?_set]
    split
    · exact ⟨batch, rfl⟩
    · next apart =>
        rcases placed key row found with same | ⟨before, was⟩
        · exact absurd same apart
        · exact watched.placed key before was
  checked other held found := by
    rw [Dict.get?_set] at found
    split at found
    · cases found
      exact checks
    · exact watched.checked other held found
  named other held found := by
    rw [taskTaken_eq_false] at free ⊢
    intro third rival present apart same
    dsimp only at found present
    rw [Dict.get?_set] at found present
    split at found
    · next here =>
        cases found
        split at present
        · next there => exact absurd (there.trans here.symm) apart
        · next there => exact free third rival present there same
    · next elsewhere =>
        split at present
        · cases present
          rw [← same]
          exact free other held found elsewhere same.symm
        · have named := watched.named other held found
          exact taskTaken_eq_false.mp named third rival present apart same
  tracked other held found := by
    rw [Dict.get?_set] at found
    split at found
    · next same =>
        cases found
        rw [same]
        exact tracked
    · next apart =>
        obtain ⟨slack, steady⟩ := others other apart
        rw [slack]
        exact (watched.tracked other held found).congr steady

/-- Only rows change. -/
theorem Watched.changeRows {rows : Rows} {attempts : Dict AttemptId Attempt}
    (watched : Watched journal slack)
    (placed : ∀ key row, rows.get? key = some row →
      ∃ batch, journal.batches.get? key.1 = some batch)
    (tracked : ∀ other batch, journal.batches.get? other = some batch →
      Tracked rows other batch (further other)) :
    Watched ⟨journal.batches, rows, attempts⟩ further where
  placed := placed
  checked := watched.checked
  named := watched.named
  tracked := tracked

/-! ## Statements -/

theorem updateBatch_any {post : Journal × Option Batch → Prop} {test : Batch → Bool}
    {set : Batch → Batch}
    (updates : ∀ batch, journal.batches.get? id = some batch → test batch = true →
      (set batch).checks = true → journal.taskTaken id (set batch).taskId = false →
        post ({ journal with batches := journal.batches.set id (set batch) }, some (set batch)))
    (stays : (∀ batch, journal.batches.get? id = some batch → test batch = false) →
      post (journal, none)) :
    Ends (fun _ => True) post (journal.updateBatch id test set) := by
  unfold updateBatch
  cases found : journal.batches.get? id with
  | none => exact stays fun batch present => nomatch found.symm.trans present
  | some batch =>
    dsimp only
    split
    · next passes =>
        split
        · next checks =>
            split
            · trivial
            · next free =>
                exact updates batch found passes checks (Bool.eq_false_of_not_eq_true free)
        · trivial
    · next fails =>
        refine stays fun other present => ?_
        cases found.symm.trans present
        exact Bool.eq_false_of_not_eq_true fails

theorem updateRecipient_any {post : Journal × Bool → Prop} {key : BatchId × RecipientId}
    {test : Recipient → Bool} {set : Recipient → Recipient}
    (updates : ∀ row, journal.recipients.get? key = some row → test row = true →
      post ({ journal with recipients := journal.recipients.set key (set row) }, true))
    (stays : post (journal, false)) :
    Ends (fun _ => True) post (journal.updateRecipient key test set) := by
  unfold updateRecipient
  cases found : journal.recipients.get? key with
  | none => exact stays
  | some row =>
    dsimp only
    split
    · next passes =>
        split
        · exact updates row found passes
        · trivial
    · exact stays

theorem updateRecipients_any {post : Journal → Prop} {test : Recipient → Bool}
    {set : Recipient → Recipient}
    (updated : post { journal with
      recipients := journal.recipients.adjust fun key row =>
        if key.1 = id ∧ test row = true then set row else row }) :
    Ends (fun _ => True) post (journal.updateRecipients id test set) := by
  unfold updateRecipients
  split
  · exact updated
  · trivial

/-- An update of a batch that keeps its rows. -/
theorem Watched.updateBatch (watched : Watched journal slack) {test : Batch → Bool}
    {set : Batch → Batch} (others : ∀ other, other ≠ id → further other = slack other)
    (updates : ∀ batch, journal.batches.get? id = some batch → test batch = true →
      Tracked journal.recipients id batch (slack id) →
        Tracked journal.recipients id (set batch) (further id))
    (stays : (∀ batch, journal.batches.get? id = some batch → test batch = false) →
      further id = slack id) :
    Ends (fun _ => True) (fun result => Watched result.1 further ∧
      ∀ other, (journal.batches.get? other).isSome = true →
        (result.1.batches.get? other).isSome = true) (journal.updateBatch id test set) := by
  apply updateBatch_any
  · intro batch found passes checks free
    constructor
    · refine watched.change checks free (fun key row present => .inr ⟨row, present⟩)
        (fun other apart => ⟨others other apart, .refl _ _⟩) ?_
      exact updates batch found passes (watched.tracked id batch found)
    · intro other present
      rw [Dict.get?_set]
      split
      · rfl
      · exact present
  · intro fails
    have same : further = slack := by
      funext other
      by_cases here : other = id
      · rw [here]
        exact stays fails
      · exact others other here
    rw [same]
    exact ⟨watched, fun _ present => present⟩

/-- An update of a batch that keeps its rows and its slack. -/
theorem Watched.restate (watched : Watched journal slack) {test : Batch → Bool}
    {set : Batch → Batch}
    (updates : ∀ batch, journal.batches.get? id = some batch → test batch = true →
      Tracked journal.recipients id batch (slack id) →
        Tracked journal.recipients id (set batch) (slack id)) :
    Ends (fun _ => True) (fun result => Watched result.1 slack) (journal.updateBatch id test set) :=
  (watched.updateBatch (fun _ _ => rfl) updates fun _ => rfl).mono fun _ held => held.1

/-! ## The transactions of a batch and of a recipient -/

theorem claimBatch_watched (watched : Watched journal slack) (task : String) (token : Token)
    (settingsRevision : Option Int) :
    Ends (fun _ => True) (fun result => Watched result.1 slack)
      (journal.claimBatch id task token settingsRevision) := by
  unfold claimBatch
  refine Ends.bind (watched.restate fun batch _ _ tracked => ?_) ?_
  · refine { tracked with unclaimed := ?_, closed := ?_ }
    · rintro (draft | queued)
      · cases draft
      · cases queued
    · intro finished
      cases finished
  · rintro ⟨claimed, row⟩ held
    dsimp only
    split
    · refine Ends.bind (Watched.restate held fun batch _ _ tracked => { tracked with }) ?_
      rintro ⟨named, _⟩ final
      exact final
    · exact held

theorem finishBatch_watched (watched : Watched journal slack) (token : Token) :
    Ends (fun _ => True) (fun result => Watched result.1 slack) (journal.finishBatch id token) := by
  unfold finishBatch
  refine Ends.bind (watched.restate fun batch _ passes tracked => ?_) ?_
  · simp only [Bool.and_eq_true, beq_iff_eq] at passes
    refine { tracked with unclaimed := ?_, closed := ?_ }
    · rintro (draft | queued)
      · cases draft
      · cases queued
    · exact fun _ => ⟨passes.1.2, passes.2⟩
  · rintro ⟨finished, row⟩ held
    exact held

/-- A transaction that updates a row and, if there was one, its batch. -/
theorem Watched.updateBoth (watched : Watched journal slack) {recipient : RecipientId}
    {test : Recipient → Bool} {setRow : Recipient → Recipient} {set : Batch → Batch}
    (updates : ∀ row batch, journal.recipients.get? (id, recipient) = some row →
      test row = true → journal.batches.get? id = some batch →
      Tracked journal.recipients id batch (slack id) →
      Tracked (journal.recipients.set (id, recipient) (setRow row)) id (set batch) (slack id)) :
    Ends (fun _ => True) (fun result => Watched result.1 slack) (do
      let (journal, row) ← journal.updateRecipient (id, recipient) test setRow
      if row then
        let (journal, _) ← journal.updateBatch id (fun _ => true) set
        return (journal, true)
      else return (journal, false)) := by
  have first : Ends (fun _ => True) (fun result : Journal × Bool =>
      if result.2 then
        Ends (fun _ => True) (fun final => Watched final.1 slack)
          (result.1.updateBatch id (fun _ => true) set)
      else Watched result.1 slack) (journal.updateRecipient (id, recipient) test setRow) := by
    apply updateRecipient_any
    · intro row found passes
      apply updateBatch_any
      · intro batch present _ checks free
        refine watched.change checks free ?_ ?_ ?_
        · intro key other held
          rw [Dict.get?_set] at held
          split at held
          · next same => exact .inl (congrArg Prod.fst same)
          · exact .inr ⟨other, held⟩
        · exact fun other apart => ⟨rfl, .of_forall (number_set_ne found _ apart)⟩
        · exact updates row batch found passes present (watched.tracked id batch present)
      · intro none
        obtain ⟨batch, present⟩ := watched.placed _ row found
        cases none batch present
    · exact watched
  apply first.bind
  rintro ⟨next, row⟩ held
  cases row with
  | false => exact held
  | true =>
    apply Ends.bind held
    rintro ⟨final, _⟩ result
    exact result

theorem claimRecipient_watched (watched : Watched journal slack) (recipient : RecipientId)
    (batchToken token : Token) :
    Ends (fun _ => True) (fun result => Watched result.1 slack)
      (journal.claimRecipient id recipient batchToken token) := by
  apply watched.updateBoth
  intro row batch found passes present tracked
  simp only [Bool.and_eq_true, Option.any_eq_true, beq_iff_eq] at passes
  obtain ⟨⟨owner, owned, _, running⟩, pending⟩ := passes
  cases owned.symm.trans present
  have moved := number_move found { row with state := .started, ownerToken := some token }
  obtain ⟨waiting, started, _, _⟩ := tracked
  constructor
  case pending =>
    rw [moved]
    simp [inState, pending]
    omega
  case started =>
    rw [moved]
    simp [inState, pending]
    omega
  case unclaimed =>
    rintro (draft | queued)
    · cases running.symm.trans draft
    · cases running.symm.trans queued
  case closed =>
    intro finished
    cases running.symm.trans finished

theorem finishRecipient_watched (watched : Watched journal slack) (recipient : RecipientId)
    (token : Token) (result : DeliveryResult) :
    Ends (fun _ => True) (fun result => Watched result.1 slack)
      (journal.finishRecipient id recipient token result) := by
  unfold finishRecipient
  cases known : Disposition.ofOutcome result.outcome with
  | none => trivial
  | some outcome =>
    have settled : outcome ≠ .pending ∧ outcome ≠ .started := by
      unfold Disposition.ofOutcome at known
      split at known <;> cases known <;> decide
    apply watched.updateBoth
    intro row batch found passes present tracked
    simp only [Bool.and_eq_true, beq_iff_eq] at passes
    have running := tracked.running found passes.2
    have moved := number_move found
      { row with
        state := outcome, reasonCode := some result.reasonCode
        retryable := result.retryable, messageId := result.messageId, ownerToken := none }
    obtain ⟨waiting, started, _, _⟩ := tracked
    cases outcome with
    | pending => exact absurd rfl settled.1
    | started => exact absurd rfl settled.2
    | _ =>
      constructor
      all_goals
        simp [moved, inState, passes.2, Batch.credit, running] at *
        try omega

theorem Watched.attempts (watched : Watched journal slack) (attempts : Dict AttemptId Attempt) :
    Watched { journal with attempts } slack :=
  ⟨watched.placed, watched.checked, watched.named, watched.tracked⟩

theorem startAttempt_watched (watched : Watched journal slack) (attempt : AttemptId)
    (recipient : RecipientId) (token : Token) (sequence : Int) :
    Ends (fun _ => True) (fun result => Watched result.1 slack)
      (journal.startAttempt attempt id recipient token sequence) := by
  unfold startAttempt
  split
  · split_ifs
    · trivial
    · trivial
    · exact watched.attempts _
    · exact watched
  · exact watched

theorem finishAttempt_watched (watched : Watched journal slack) (attempt : AttemptId)
    (token : Token) (result : DeliveryResult) :
    Ends (fun _ => True) (fun result => Watched result.1 slack)
      (journal.finishAttempt attempt token result) := by
  unfold finishAttempt
  split
  · exact watched
  · dsimp only
    split
    · split
      · trivial
      · split
        · exact watched.attempts _
        · trivial
    · exact watched

/-! ## The transactions of a whole batch -/

/-- A transaction that updates rows of a batch and then the batch. -/
theorem Watched.updateAll (watched : Watched journal slack) {test : Recipient → Bool}
    {setRow : Recipient → Recipient} {testBatch : Batch → Bool} {set : Batch → Batch}
    (updates : ∀ batch, journal.batches.get? id = some batch → testBatch batch = true →
      Tracked journal.recipients id batch (slack id) →
      Tracked (journal.recipients.adjust fun key row =>
        if key.1 = id ∧ test row = true then setRow row else row) id (set batch) (slack id))
    (stays : ∀ batch, journal.batches.get? id = some batch → testBatch batch = false →
      Tracked journal.recipients id batch (slack id) →
      Tracked (journal.recipients.adjust fun key row =>
        if key.1 = id ∧ test row = true then setRow row else row) id batch (slack id)) :
    Ends (fun _ => True) (Watched · slack) (do
      let journal ← journal.updateRecipients id test setRow
      let (journal, _) ← journal.updateBatch id testBatch set
      return journal) := by
  have before : ∀ key row, (journal.recipients.adjust fun key row =>
      if key.1 = id ∧ test row = true then setRow row else row).get? key = some row →
        ∃ before, journal.recipients.get? key = some before := by
    intro key row present
    rw [Dict.get?_adjust] at present
    obtain ⟨before, was, _⟩ := Option.map_eq_some_iff.mp present
    exact ⟨before, was⟩
  have rows : Ends (fun _ => True) (fun next : Journal => Ends (fun _ => True)
      (fun result => Watched result.1 slack) (next.updateBatch id testBatch set))
      (journal.updateRecipients id test setRow) := by
    apply updateRecipients_any
    apply updateBatch_any
    · intro batch found passes checks free
      refine watched.change checks free (fun key row present => .inr (before key row present))
        (fun other apart => ⟨rfl, .of_forall fun _ => number_update_ne apart⟩) ?_
      exact updates batch found passes (watched.tracked id batch found)
    · intro fails
      refine watched.changeRows ?_ ?_
      · intro key row present
        obtain ⟨old, was⟩ := before key row present
        exact watched.placed key old was
      · intro other batch found
        by_cases same : other = id
        · subst same
          exact stays batch found (fails batch found) (watched.tracked other batch found)
        · exact (watched.tracked other batch found).congr
            (.of_forall fun _ => number_update_ne same)
  apply rows.bind
  intro next held
  apply Ends.bind held
  rintro ⟨final, _⟩ result
  exact result

theorem recordAdmission_watched (watched : Watched journal fun _ => 0) {admission : Admission}
    (promised : admission.state = .rejected →
      ∀ batch ∈ journal.batches.get? id, batch.state ≠ .running) :
    Ends (fun _ => True) (Watched · fun _ => 0) (journal.recordAdmission id admission) := by
  unfold recordAdmission
  have recorded : Ends (fun _ => True) (fun result : Journal × Option Batch =>
      (Watched result.1 fun _ => 0) ∧ (admission.state = .rejected →
        ∀ batch ∈ result.1.batches.get? id, batch.state ≠ .running))
      (journal.updateBatch id (fun _ => true) fun batch =>
        { batch with
          admissionState := admission.state
          admissionReason := Admission.reason admission
          storageMode := admission.storageMode
          taskId := batch.taskId <|> admission.taskId
          state :=
            if batch.state = .draft ∧ admission.taskId.isSome then .queued else batch.state }) := by
    apply updateBatch_any
    · intro batch found _ checks free
      constructor
      · refine watched.change checks free (fun key row present => .inr ⟨row, present⟩)
          (fun other _ => ⟨rfl, .refl _ _⟩) ?_
        have tracked := watched.tracked id batch found
        refine { tracked with unclaimed := ?_, closed := ?_ }
        · intro early
          split at early
          · next queued => exact tracked.unclaimed (.inl queued.1)
          · exact tracked.unclaimed early
        · intro finished
          split at finished
          · cases finished
          · exact tracked.closed finished
      · intro rejected other present
        rw [Option.mem_def, Dict.get?_set, if_pos rfl] at present
        cases present
        have idle := promised rejected batch found
        dsimp only
        split
        · exact BatchState.noConfusion
        · exact idle
    · exact fun _ => ⟨watched, promised⟩
  apply recorded.bind
  rintro ⟨next, _⟩ ⟨held, idle⟩
  dsimp only
  split
  · next rejected =>
      apply held.updateAll
      · intro batch found passes tracked
        obtain ⟨pending, started, -⟩ := number_rejected next.recipients id
        have early : batch.started = 0 := by
          apply tracked.unclaimed
          simpa only [Bool.or_eq_true, beq_iff_eq] using passes
        constructor
        case pending =>
          dsimp only
          omega
        case started => exact tracked.started.trans started.symm
        case unclaimed => exact fun _ => early
        case closed => exact fun _ => ⟨rfl, early⟩
      · intro batch found fails tracked
        obtain ⟨pending, started, -⟩ := number_rejected next.recipients id
        have finished : batch.state = .finished := by
          have settled := idle rejected batch found
          cases state : batch.state with
          | draft | queued => simp [state] at fails
          | running => exact absurd state settled
          | finished => rfl
        constructor
        case pending =>
          have none := (tracked.closed finished).1
          dsimp only
          omega
        case started => exact tracked.started.trans started.symm
        case unclaimed => exact tracked.unclaimed
        case closed => exact tracked.closed
  · exact held

theorem interruptBatch_watched (watched : Watched journal fun _ => 0) :
    Ends (fun _ => True) (Watched · fun _ => 0) (journal.interruptBatch id) := by
  unfold interruptBatch interruptAttempts
  rw [if_pos (by decide)]
  have idle := watched.attempts (journal.attempts.adjust fun _ attempt =>
    if attempt.batchId = id ∧ attempt.outcome = .started then
      { attempt with outcome := .unknownDelivery, reasonCode := some "worker_interrupted" }
    else attempt)
  apply idle.updateAll
  · intro batch found passes tracked
    obtain ⟨pending, started, -⟩ := number_interrupted journal.recipients id
    constructor
    case pending =>
      dsimp only
      omega
    case started => exact started.symm
    case unclaimed => exact fun _ => rfl
    case closed => exact fun _ => ⟨rfl, rfl⟩
  · intro batch found fails tracked
    obtain ⟨pending, started, -⟩ := number_interrupted journal.recipients id
    have finished : batch.state = .finished := by simpa using fails
    have none := tracked.closed finished
    constructor
    case pending =>
      dsimp only
      omega
    case started =>
      rw [none.2]
      exact started.symm
    case unclaimed => exact tracked.unclaimed
    case closed => exact tracked.closed

/-! ## Creating a batch -/

/-- The recipients of one batch that are still to be inserted. -/
def waitingAt (id : BatchId) (left : Nat) : BatchId → Int := fun other =>
  if other = id then left else 0

theorem waitingAt_self (id : BatchId) (left : Nat) : waitingAt id left id = left := if_pos rfl

theorem waitingAt_ne {other : BatchId} (apart : other ≠ id) (left : Nat) :
    waitingAt id left other = 0 := if_neg apart

theorem waitingAt_zero (id : BatchId) : waitingAt id 0 = fun _ => 0 := by
  funext other
  by_cases same : other = id
  · rw [same, waitingAt_self]
    rfl
  · exact waitingAt_ne same 0

/-- A row that changes without leaving its state. -/
theorem Watched.restateRow (watched : Watched journal slack) {key : BatchId × RecipientId}
    {row : Recipient} (found : journal.recipients.get? key = some row) {new : Recipient}
    (same : new.state = row.state) :
    Watched { journal with recipients := journal.recipients.set key new } slack := by
  refine watched.changeRows ?_ ?_
  · intro other held present
    rw [Dict.get?_set] at present
    split at present
    · next here => exact here ▸ watched.placed key row found
    · exact watched.placed other held present
  · intro other batch present
    refine (watched.tracked other batch present).congr ⟨?_, ?_⟩
    · have moved := number_set found new other (inState .pending)
      simp only [inState, same] at moved
      exact add_right_cancel moved
    · have moved := number_set found new other (inState .started)
      simp only [inState, same] at moved
      exact add_right_cancel moved

theorem consume_watched (parent : BatchId) (recipients : List Snapshot)
    (watched : Watched journal slack) :
    Watched (Journal.consume parent journal recipients).1 slack := by
  induction recipients generalizing journal with
  | nil => exact watched
  | cons recipient rest ih =>
    simp only [Journal.consume]
    split
    · next row used =>
        obtain ⟨found, -⟩ := Option.filter_eq_some_iff.mp used
        exact ih (watched.restateRow found rfl)
    · exact ih watched

theorem consumeParent_watched (watched : Watched journal slack) (args : NewBatch) :
    Ends (fun _ => True) (fun result => Watched result.1 slack) (journal.consumeParent args) := by
  unfold consumeParent
  split
  · exact watched
  · next parent _ =>
      have used := consume_watched parent args.recipients watched
      refine Ends.bind (used.restate fun batch _ _ tracked => { tracked with }) ?_
      rintro ⟨next, _⟩ held
      exact held

/-- A batch that is inserted counts its recipients before their rows are. -/
theorem insertBatch_watched (watched : Watched journal fun _ => 0) (args : NewBatch)
    (recipients : List Snapshot) :
    Ends (fun _ => True) (fun next => Watched next (waitingAt args.batchId
        (recipients.filter fun recipient => recipient.reasonCode.isNone).length) ∧
        (next.batches.get? args.batchId).isSome = true)
      (journal.insertBatch args (NewBatch.row args recipients)) := by
  unfold insertBatch
  split_ifs with fails taken orphan
  · trivial
  · trivial
  · trivial
  · have absent : journal.batches.get? args.batchId = none := by
      simpa [Dict.contains] using taken
    have empty : ∀ test, number journal.recipients args.batchId test = 0 := by
      intro test
      apply number_empty
      intro key row found same
      obtain ⟨batch, present⟩ := watched.placed key row found
      rw [same, absent] at present
      cases present
    constructor
    · refine watched.change (by simpa using fails) rfl (fun key row present => .inr ⟨row, present⟩)
        (fun other apart => ⟨waitingAt_ne apart _, .refl _ _⟩) ?_
      constructor
      case pending =>
        rw [empty, zero_add, waitingAt_self]
        rfl
      case started =>
        rw [empty]
        rfl
      case unclaimed => exact fun _ => rfl
      case closed =>
        intro finished
        cases finished
    · rw [Dict.get?_set, if_pos rfl]
      rfl

theorem releaseScheduleKey_watched (watched : Watched journal slack) (args : NewBatch)
    (recipient : Snapshot) (key : Option String) :
    Ends (fun _ => True)
      (fun result => Watched result.1 slack ∧ result.1.batches = journal.batches)
      (journal.releaseScheduleKey args recipient key) := by
  unfold releaseScheduleKey
  cases args.parentBatchId with
  | none => exact ⟨watched, rfl⟩
  | some parent =>
    cases key with
    | none => exact ⟨watched, rfl⟩
    | some text =>
      apply updateRecipient_any
      · intro row found _
        exact ⟨watched.restateRow found rfl, rfl⟩
      · exact ⟨watched, rfl⟩

/-- A recipient that is not inserted moves from `pending` to `skipped`. -/
theorem skipRecipient_watched {waiting : Nat}
    (watched : Watched journal (waitingAt id (waiting + 1)))
    (known : (journal.batches.get? id).isSome = true) :
    Ends (fun _ => True) (fun next => Watched next (waitingAt id waiting) ∧
        (next.batches.get? id).isSome = true) (do
      let (journal, _) ← journal.updateBatch id (fun _ => true) fun batch =>
        { batch with pending := batch.pending - 1, skipped := batch.skipped + 1 }
      return journal) := by
  have others : ∀ other, other ≠ id →
      waitingAt id waiting other = waitingAt id (waiting + 1) other :=
    fun other apart => (waitingAt_ne apart _).trans (waitingAt_ne apart _).symm
  refine Ends.bind (watched.updateBatch others ?_ ?_) ?_
  · intro batch _ _ tracked
    obtain ⟨pending, started, unclaimed, closed⟩ := tracked
    rw [waitingAt_self] at pending
    refine ⟨?_, started, unclaimed, ?_⟩
    · rw [waitingAt_self]
      dsimp only
      omega
    · intro finished
      have rest := number_nonneg journal.recipients id (inState .pending)
      have none := closed finished
      omega
  · intro none
    obtain ⟨batch, found⟩ := Option.isSome_iff_exists.mp known
    cases none batch found
  · rintro ⟨next, _⟩ held
    exact ⟨held.1, held.2 id known⟩

/-- A recipient that is inserted is counted already. -/
theorem Watched.insert {waiting : Nat} (watched : Watched journal (waitingAt id (waiting + 1)))
    (known : (journal.batches.get? id).isSome = true) {recipient : RecipientId}
    (missing : journal.recipients.get? (id, recipient) = none) {row : Recipient}
    (pending : row.state = .pending) :
    Watched { journal with recipients := journal.recipients.set (id, recipient) row }
      (waitingAt id waiting) := by
  refine watched.changeRows ?_ ?_
  · intro key held present
    rw [Dict.get?_set] at present
    split at present
    · next same =>
        rw [same]
        exact Option.isSome_iff_exists.mp known
    · exact watched.placed key held present
  · intro other batch present
    have grown := fun test => number_insert missing row other test
    obtain ⟨waits, goes, unclaimed, closed⟩ := watched.tracked other batch present
    refine ⟨?_, ?_, unclaimed, closed⟩
    · rw [grown]
      by_cases same : other = id
      · rw [same, waitingAt_self] at waits ⊢
        simp [inState, pending]
        omega
      · have apart : ¬ id = other := fun also => same also.symm
        rw [waitingAt_ne same] at waits ⊢
        simp [apart, waits]
    · rw [grown]
      simp [inState, pending, goes]

theorem insertRecipient_watched (sha256 : String → String) (users : RecipientId → Bool)
    {args : NewBatch} {waiting : Nat} (recipient : Snapshot)
    (watched : Watched journal (waitingAt args.batchId (waiting + 1)))
    (known : (journal.batches.get? args.batchId).isSome = true) :
    Ends (fun _ => True) (fun next => Watched next (waitingAt args.batchId waiting) ∧
        (next.batches.get? args.batchId).isSome = true)
      (insertRecipient sha256 users args journal recipient) := by
  unfold insertRecipient
  refine Ends.bind (releaseScheduleKey_watched watched args recipient
    (scheduleKey sha256 args recipient)) ?_
  rintro ⟨freed, _⟩ ⟨held, same⟩
  dsimp only at held same
  have present : (freed.batches.get? args.batchId).isSome = true := by
    rw [same]
    exact known
  dsimp only
  split
  · split
    · trivial
    · split
      · exact skipRecipient_watched held present
      · next epoch _ free =>
          have missing : freed.recipients.get? (args.batchId, recipient.recipientId) = none := by
            simp only [conflicts, Bool.not_eq_true, Bool.or_eq_false_iff] at free
            exact Option.not_isSome_iff_eq_none.mp (Bool.eq_false_iff.mp free.1)
          exact ⟨held.insert present missing rfl, present⟩
  · exact skipRecipient_watched held present

theorem createBatch_watched (watched : Watched journal fun _ => 0) (sha256 : String → String)
    (users : RecipientId → Bool) (args : NewBatch) :
    Ends (fun _ => True) (fun result => Watched result.1 fun _ => 0)
      (journal.createBatch sha256 users args) := by
  unfold createBatch
  split
  · exact watched
  · split
    · exact watched
    · apply Ends.bind (consumeParent_watched watched args)
      rintro ⟨consumed, recipients⟩ held
      dsimp only at held ⊢
      apply Ends.bind (insertBatch_watched held args recipients)
      rintro inserted initial
      let invariant (rest : List Snapshot) (next : Journal) : Prop :=
        Watched next (waitingAt args.batchId rest.length) ∧
          (next.batches.get? args.batchId).isSome = true
      have step : ∀ next recipient rest, invariant (recipient :: rest) next →
          Ends (fun _ => True) (invariant rest)
            (insertRecipient sha256 users args next recipient) := by
        rintro next recipient rest ⟨now, there⟩
        exact insertRecipient_watched sha256 users recipient now there
      apply (Ends.foldlM step _ initial).bind
      rintro final ⟨done, -⟩
      rw [List.length_nil, waitingAt_zero] at done
      exact done

/-! ## Runs -/

theorem transact_watched (sha256 : String → String) (watched : Watched journal fun _ => 0)
    {label : Label} (allowed : journal.Allowed label) :
    Ends (fun _ => True) (Watched · fun _ => 0) (journal.transact sha256 label) := by
  cases label with
  | createBatch users args => exact (createBatch_watched watched sha256 users args).map
  | recordAdmission id admission => exact recordAdmission_watched watched allowed
  | claimBatch id task token revision =>
    exact (claimBatch_watched watched task token revision).map
  | claimRecipient id recipient batchToken token =>
    exact (claimRecipient_watched watched recipient batchToken token).map
  | startAttempt attempt id recipient token sequence =>
    exact (startAttempt_watched watched attempt recipient token sequence).map
  | finishAttempt id token result => exact (finishAttempt_watched watched id token result).map
  | finishRecipient id recipient token result =>
    exact (finishRecipient_watched watched recipient token result).map
  | finishBatch id token => exact (finishBatch_watched watched token).map
  | interruptBatch id => exact interruptBatch_watched watched

theorem Watched.ok {outcome : Except Violation Journal} (watched : Watched journal slack)
    (ends : Ends (fun _ => True) (Watched · slack) outcome) :
    Watched (outcome.toOption.getD journal) slack := by
  cases outcome with
  | ok next => exact ends
  | error failure => exact watched

theorem watched_start : Watched start fun _ => 0 where
  placed _ _ found := by cases found
  checked _ _ found := by cases found
  named _ _ found := by cases found
  tracked _ _ found := by cases found

/-- An update that meets the constraints happens. -/
theorem updateBatch_eq {batch : Batch} {test : Batch → Bool} {set : Batch → Batch}
    (found : journal.batches.get? id = some batch) (passes : test batch = true)
    (checks : (set batch).checks = true)
    (free : journal.taskTaken id (set batch).taskId = false) :
    journal.updateBatch id test set =
      .ok ({ journal with batches := journal.batches.set id (set batch) }, some (set batch)) := by
  rw [updateBatch, found]
  dsimp only
  rw [if_pos passes, if_pos checks, free]
  rfl

/-- A batch without open rows is finished by its owner. -/
theorem Watched.finishes (watched : Watched journal fun _ => 0) {batch : Batch} {token : Token}
    (found : journal.batches.get? id = some batch) (owned : batch.ownerToken = some token)
    (processed : ∀ recipient row, journal.recipients.get? (id, recipient) = some row →
      row.state ≠ .pending ∧ row.state ≠ .started) :
    ∃ next, journal.finishBatch id token = .ok (next, true) := by
  have tracked := watched.tracked id batch found
  have pending : batch.pending = 0 := by
    rw [tracked.pending, number_zero fun recipient row there => (processed recipient row there).1]
    rfl
  have started : batch.started = 0 := by
    rw [tracked.started, number_zero fun recipient row there => (processed recipient row there).2]
  have checks : Batch.checks { batch with state := .finished, ownerToken := none } = true :=
    watched.checked id batch found
  have free := watched.named id batch found
  have passes : (batch.ownerToken == some token && batch.pending == 0 && batch.started == 0) =
      true := by
    simp [owned, pending, started]
  refine ⟨{ journal with
    batches := journal.batches.set id { batch with state := .finished, ownerToken := none } }, ?_⟩
  unfold finishBatch
  rw [updateBatch_eq found passes checks free]
  rfl

end Journal

end BobbyBotique.Broadcast
