import BobbyBotique.Broadcast.Schedule

/-!
# One delivery for a schedule identity

The journal with its clock and with the deletion of old rows, which ends each
recovery pass.  Until retention deletes a row, its identity is delivered at
most once; a deleted row frees its key.
-/

namespace BobbyBotique.Broadcast

/-- `INTERVAL '30 days'` in microseconds. -/
def retention : Nat := 30 * 24 * 60 * 60 * 1000000

/-- The journal, the clock of the database and the `created_at` of each row. -/
structure Archive where
  journal : Journal
  clock : Nat
  createdAt : BatchId × RecipientId → Nat

/-- A transaction, the deletion that ends a recovery pass, or time that goes by. -/
inductive Act where
  | transact (label : Label)
  | purge (chosen : List (BatchId × RecipientId))
  | wait (duration : Nat)

namespace Archive

def start : Archive := ⟨.start, 0, fun _ => 0⟩

/-- A row that a transaction inserts is created at the clock's time. -/
def transact (sha256 : String → String) (archive : Archive) (label : Label) : Archive :=
  { archive with
    journal := archive.journal.step sha256 label
    createdAt := fun key =>
      if archive.journal.recipients.contains key then archive.createdAt key else archive.clock }

/-- `purge_retained_recipients` of the rows its query chooses; their attempts go with them. -/
def purgeRetainedRecipients (archive : Archive) (chosen : List (BatchId × RecipientId)) :
    Archive :=
  let gone (key : BatchId × RecipientId) : Bool :=
    (chosen.take 1000).contains key && decide (archive.createdAt key + retention < archive.clock)
  { archive with
    journal :=
      { batches := archive.journal.batches
        recipients := archive.journal.recipients.retain fun key _ => !gone key
        attempts := archive.journal.attempts.retain fun _ attempt =>
          !gone (attempt.batchId, attempt.recipientId) } }

def step (sha256 : String → String) (archive : Archive) : Act → Archive
  | .transact label => archive.transact sha256 label
  | .purge chosen => archive.purgeRetainedRecipients chosen
  | .wait duration => { archive with clock := archive.clock + duration }

variable {archive next : Archive} {sha256 : String → String}

/-- What one act does to the rows: it keeps some, creates some in new batches,
or deletes some that are older than the retention. -/
structure Moves (archive next : Archive) : Prop where
  clock : archive.clock ≤ next.clock
  batches : ∀ id batch, archive.journal.batches.get? id = some batch →
    ∃ new, next.journal.batches.get? id = some new ∧ batch.Follows new
  rows : ∀ key row, next.journal.recipients.get? key = some row →
    (∃ old, archive.journal.recipients.get? key = some old ∧ old.Follows row ∧
      next.createdAt key = archive.createdAt key) ∨
    archive.journal.batches.get? key.1 = none ∧ next.createdAt key = next.clock ∧
      ∀ other, archive.journal.recipients.contains other = true →
        next.journal.recipients.contains other = true
  lost : ∀ key old, archive.journal.recipients.get? key = some old →
    next.journal.recipients.get? key = none → archive.createdAt key + retention < next.clock
  children : ∀ source child, next.journal.Child source child →
    archive.journal.Child source child ∨ archive.journal.Retryable source

theorem transact_moves (orderly : archive.journal.Orderly sha256) (label : Label) :
    archive.Moves (archive.transact sha256 label) := by
  obtain ⟨_, advances⟩ := Journal.step_advances orderly label
  constructor
  · exact le_rfl
  · exact advances.batches
  · intro key row there
    cases found : archive.journal.recipients.get? key with
    | some old =>
      obtain ⟨new, still, follows⟩ := advances.recipients key old found
      cases still.symm.trans there
      refine .inl ⟨old, rfl, follows, if_pos ?_⟩
      exact Option.isSome_iff_exists.mpr ⟨old, found⟩
    | none =>
      have absent : ¬ archive.journal.recipients.contains key = true := by
        simp [Dict.contains, found]
      refine .inr ⟨?_, if_neg absent, ?_⟩
      · cases known : archive.journal.batches.get? key.1 with
        | none => rfl
        | some batch =>
          obtain ⟨old, present⟩ := advances.fresh key row batch there known
          cases found.symm.trans present
      · intro other present
        obtain ⟨old, held⟩ := Option.isSome_iff_exists.mp present
        obtain ⟨new, still, _⟩ := advances.recipients other old held
        exact Option.isSome_iff_exists.mpr ⟨new, still⟩
  · intro key old found gone
    obtain ⟨new, still, _⟩ := advances.recipients key old found
    cases gone.symm.trans still
  · exact advances.children

theorem purge_moves (archive : Archive) (chosen : List (BatchId × RecipientId)) :
    archive.Moves (archive.purgeRetainedRecipients chosen) := by
  constructor
  · exact le_rfl
  · exact fun id batch found => ⟨batch, found, .refl batch⟩
  · intro key row there
    obtain ⟨found, _⟩ := (Dict.get?_retain_eq_some _ _ _ _).mp there
    exact .inl ⟨row, found, .refl row, rfl⟩
  · intro key old found gone
    simp only [purgeRetainedRecipients, Dict.get?_retain, found, Option.filter_some] at gone
    split_ifs at gone with kept
    simp only [Bool.not_eq_true', Bool.not_eq_false, Bool.and_eq_true, decide_eq_true_eq] at kept
    exact kept.2
  · rintro source child ⟨parent, present⟩
    obtain ⟨row, there⟩ := Option.isSome_iff_exists.mp present
    obtain ⟨found, _⟩ := (Dict.get?_retain_eq_some _ _ _ _).mp there
    exact .inl ⟨parent, Option.isSome_iff_exists.mpr ⟨row, found⟩⟩

theorem wait_moves (archive : Archive) (duration : Nat) :
    archive.Moves { archive with clock := archive.clock + duration } := by
  constructor
  · exact Nat.le_add_right _ _
  · exact fun id batch found => ⟨batch, found, .refl batch⟩
  · exact fun key row there => .inl ⟨row, there, .refl row, rfl⟩
  · intro key old found gone
    cases gone.symm.trans found
  · exact fun source child retried => .inl retried

theorem step_moves (orderly : archive.journal.Orderly sha256) (act : Act) :
    archive.Moves (archive.step sha256 act) := by
  cases act with
  | transact label => exact transact_moves orderly label
  | purge chosen => exact purge_moves archive chosen
  | wait duration => exact wait_moves archive duration

theorem step_orderly (orderly : archive.journal.Orderly sha256) (act : Act) :
    (archive.step sha256 act).journal.Orderly sha256 := by
  cases act with
  | transact label => exact (Journal.step_advances orderly label).1
  | purge chosen => exact orderly.delete _ _
  | wait duration => exact orderly

theorem run_orderly (sha256 : String → String) (acts : List Act)
    (orderly : archive.journal.Orderly sha256) :
    (Run.run (step sha256) archive acts).journal.Orderly sha256 :=
  Run.run_keeps (fun state : Archive => state.journal.Orderly sha256)
    (fun _ act held => step_orderly held act) orderly acts

/-- A row that stays keeps its identity. -/
theorem Moves.identity (moves : archive.Moves next) (orderly : archive.journal.Orderly sha256)
    {key : BatchId × RecipientId} {old row : Recipient}
    (found : archive.journal.recipients.get? key = some old)
    (there : next.journal.recipients.get? key = some row) (follows : old.Follows row) :
    next.journal.scheduleIdentity key = archive.journal.scheduleIdentity key := by
  obtain ⟨batch, owner⟩ := orderly.placed key old found
  obtain ⟨new, still, same⟩ := moves.batches key.1 batch owner
  simp only [Journal.scheduleIdentity, owner, found, still, there, same.identity follows,
    same.scheduled]

/-! ## One delivery for an identity -/

/-- A row that was possibly delivered: it stays so, or it was deleted after the
retention and the other row has failed or is younger. -/
structure Closed (first second : BatchId × RecipientId) (identity : ScheduleIdentity)
    (created : Nat) (archive : Archive) : Prop where
  known : ∃ batch, archive.journal.batches.get? first.1 = some batch
  stays : ∀ row, archive.journal.recipients.get? first = some row →
    archive.journal.scheduleIdentity first = some identity ∧
      archive.journal.PossiblyDelivered first ∧ archive.createdAt first = created
  gone : archive.journal.recipients.get? first = none → created + retention < archive.clock ∧
    ∀ row, archive.journal.recipients.get? second = some row →
      row.state = .failed ∨ archive.journal.scheduleIdentity second ≠ some identity ∨
        created + retention < archive.createdAt second

variable {first second : BatchId × RecipientId} {identity : ScheduleIdentity} {created : Nat}

theorem Closed.step (closed : Closed first second identity created archive)
    (differ : first ≠ second) (orderly : archive.journal.Orderly sha256)
    (moves : archive.Moves next) : Closed first second identity created next := by
  obtain ⟨batch, owner⟩ := closed.known
  -- The other row keeps what bars it.
  have barred : ∀ {old row}, archive.journal.recipients.get? second = some old →
      next.journal.recipients.get? second = some row → old.Follows row →
      next.createdAt second = archive.createdAt second →
      (old.state = .failed ∨ archive.journal.scheduleIdentity second ≠ some identity ∨
        created + retention < archive.createdAt second) →
      row.state = .failed ∨ next.journal.scheduleIdentity second ≠ some identity ∨
        created + retention < next.createdAt second := by
    intro old row found there follows same why
    rw [moves.identity orderly found there follows, same]
    exact why.imp_left fun failed => (follows.failed failed).1
  constructor
  · obtain ⟨new, still, _⟩ := moves.batches first.1 batch owner
    exact ⟨new, still⟩
  · intro row there
    rcases moves.rows first row there with ⟨old, found, follows, same⟩ | ⟨unknown, _⟩
    · obtain ⟨named, ⟨seen, present, outcome⟩, birth⟩ := closed.stays old found
      cases found.symm.trans present
      refine ⟨(moves.identity orderly found there follows).trans named, ⟨row, there, ?_⟩,
        same.trans birth⟩
      rw [(follows.settled (Disposition.concluded (outcome.imp_right .inr)).1).1]
      exact outcome
    · cases unknown.symm.trans owner
  · intro absent
    cases found : archive.journal.recipients.get? first with
    | some old =>
      obtain ⟨named, delivered, birth⟩ := closed.stays old found
      refine ⟨birth ▸ moves.lost first old found absent, ?_⟩
      intro row there
      rcases moves.rows second row there with ⟨other, held, follows, same⟩ | ⟨_, _, others⟩
      · apply barred held there follows same
        by_cases twin : archive.journal.scheduleIdentity second = some identity
        · obtain ⟨seen, present, failed⟩ :=
            orderly.one_delivered named twin delivered differ
          cases held.symm.trans present
          exact .inl failed
        · exact .inr (.inl twin)
      · have present := others first (Option.isSome_iff_exists.mpr ⟨old, found⟩)
        rw [Dict.contains, absent] at present
        cases present
    | none =>
      obtain ⟨old, why⟩ := closed.gone found
      have later := lt_of_lt_of_le old moves.clock
      refine ⟨later, ?_⟩
      intro row there
      rcases moves.rows second row there with ⟨other, held, follows, same⟩ | ⟨_, birth, _⟩
      · exact barred held there follows same (why other held)
      · rw [birth]
        exact .inr (.inr later)

/-- Retention took the first row, and the second one was created later. -/
def Replaced (before after : Archive) (first second : BatchId × RecipientId) : Prop :=
  after.journal.recipients.get? first = none ∧
    before.createdAt first + retention < after.createdAt second

theorem run_delivered (acts : List Act) (orderly : archive.journal.Orderly sha256)
    (named : archive.journal.scheduleIdentity first = some identity)
    (delivered : archive.journal.PossiblyDelivered first)
    (also : (Run.run (step sha256) archive acts).journal.scheduleIdentity second = some identity)
    (again : (Run.run (step sha256) archive acts).journal.PossiblyDelivered second) :
    first = second ∨ archive.Replaced (Run.run (step sha256) archive acts) first second := by
  by_cases differ : first = second
  · exact .inl differ
  · obtain ⟨batch, row, owner, found, _⟩ := Journal.scheduleIdentity_eq_some.mp named
    have initial : Closed first second identity (archive.createdAt first) archive := by
      constructor
      · exact ⟨batch, owner⟩
      · exact fun _ _ => ⟨named, delivered, rfl⟩
      · intro absent
        cases found.symm.trans absent
    obtain ⟨final, closed⟩ := Run.run_keeps
      (fun state => state.journal.Orderly sha256 ∧
        Closed first second identity (archive.createdAt first) state)
      (fun state act held => ⟨step_orderly held.1 act,
        held.2.step differ held.1 (step_moves held.1 act)⟩) ⟨orderly, initial⟩ acts
    obtain ⟨other, there, outcome⟩ := again
    have succeeded := (Disposition.concluded (outcome.imp_right .inr)).2
    cases still : (Run.run (step sha256) archive acts).journal.recipients.get? first with
    | some kept =>
      obtain ⟨same, sent, _⟩ := closed.stays kept still
      obtain ⟨seen, present, failed⟩ := final.one_delivered same also sent differ
      cases Option.some.inj (present.symm.trans there)
      exact (succeeded failed).elim
    | none =>
      rcases (closed.gone still).2 other there with failed | apart | younger
      · exact (succeeded failed).elim
      · exact (apart also).elim
      · exact .inr ⟨still, younger⟩

/-! ## One child for a row -/

/-- A settled row that is not retried again, now or after it is deleted. -/
structure Ended (source : BatchId × RecipientId) (state : Disposition)
    (children : BatchId → Prop) (archive : Archive) : Prop where
  known : ∃ batch, archive.journal.batches.get? source.1 = some batch
  row : ∀ row, archive.journal.recipients.get? source = some row →
    row.state = state ∧ (state = .failed → row.retryable = false)
  only : ∀ child, archive.journal.Child source child → children child

variable {source : BatchId × RecipientId} {state : Disposition} {children : BatchId → Prop}

theorem Ended.step (ended : Ended source state children archive) (settled : state.Settled)
    (moves : archive.Moves next) : Ended source state children next := by
  obtain ⟨batch, owner⟩ := ended.known
  constructor
  · obtain ⟨new, still, _⟩ := moves.batches source.1 batch owner
    exact ⟨new, still⟩
  · intro row there
    rcases moves.rows source row there with ⟨old, found, follows, _⟩ | ⟨unknown, _⟩
    · obtain ⟨same, fixed⟩ := ended.row old found
      obtain ⟨kept, fewer⟩ := follows.settled (same ▸ settled)
      refine ⟨kept.trans same, fun failed => Bool.eq_false_iff.mpr fun again => ?_⟩
      cases (fixed failed).symm.trans (fewer again)
    · cases unknown.symm.trans owner
  · intro child retried
    rcases moves.children source child retried with old | ⟨row, found, failed, again⟩
    · exact ended.only child old
    · obtain ⟨same, fixed⟩ := ended.row row found
      cases again.symm.trans (fixed (same.symm.trans failed))

theorem Ended.run (ended : Ended source state children archive) (settled : state.Settled)
    (orderly : archive.journal.Orderly sha256) (acts : List Act) :
    Ended source state children (Run.run (Archive.step sha256) archive acts) :=
  (Run.run_keeps
    (fun current : Archive => current.journal.Orderly sha256 ∧ Ended source state children current)
    (fun _ act held => ⟨step_orderly held.1 act, held.2.step settled (step_moves held.1 act)⟩)
    ⟨orderly, ended⟩ acts).2

theorem ended_of_child (orderly : archive.journal.Orderly sha256) {child : BatchId}
    (retried : archive.journal.Child source child) :
    Ended source .failed (fun other => other = child) archive := by
  constructor
  · obtain ⟨batch, there, parent⟩ := Option.bind_eq_some_iff.mp retried.1
    exact orderly.rooted child batch source.1 there parent
  · intro row found
    obtain ⟨failed, used⟩ := orderly.spent source child row retried found
    exact ⟨failed, fun _ => used⟩
  · exact fun other again => orderly.single source other child again retried

theorem ended_of_settled (orderly : archive.journal.Orderly sha256) {row : Recipient}
    (found : archive.journal.recipients.get? source = some row) (succeeded : row.state ≠ .failed) :
    Ended source row.state (fun _ => False) archive := by
  constructor
  · exact orderly.placed source row found
  · intro other there
    cases found.symm.trans there
    exact ⟨rfl, fun failed => (succeeded failed).elim⟩
  · intro child retried
    exact succeeded (orderly.spent source child row retried found).1

/-! ## Every run -/

/-- Whatever transactions, crashes and recovery passes come in between: two
rows of one schedule identity are both possibly delivered only when retention
deleted one before the other was created; a row has at most one retry, and one
that did not fail has none. -/
theorem identity_delivered_once (sha256 : String → String) (acts : List Act) :
    ∀ before ∈ Run.trace (step sha256) start acts, ∀ after ∈ Run.trace (step sha256) start acts,
      (∀ first second identity, before.journal.scheduleIdentity first = some identity →
        after.journal.scheduleIdentity second = some identity →
        before.journal.PossiblyDelivered first → after.journal.PossiblyDelivered second →
          first = second ∨ Replaced before after first second ∨
            Replaced after before second first) ∧
      (∀ source child other, before.journal.Child source child →
        after.journal.Child source other → child = other) ∧
      ∀ source row child, before.journal.recipients.get? source = some row →
        row.state = .sent ∨ row.state = .skipped ∨ row.state = .unknownDelivery →
          ¬ after.journal.Child source child := by
  intro before passed after also
  have sound : ∀ state ∈ Run.trace (step sha256) start acts, state.journal.Orderly sha256 := by
    intro state there
    obtain ⟨acts, reached⟩ := Run.exists_run_of_mem_trace there
    rw [← reached]
    exact run_orderly sha256 acts (Journal.orderly_start sha256)
  have orderly := sound before passed
  have later := sound after also
  refine ⟨?_, ?_, ?_⟩
  · intro first second identity named twin delivered again
    rcases Run.trace_connected passed also with ⟨between, reached⟩ | ⟨between, reached⟩
    · cases reached
      exact (run_delivered between orderly named delivered twin again).imp_right .inl
    · cases reached
      exact (run_delivered between later twin again named delivered).imp Eq.symm .inr
  · intro source child other retried again
    rcases Run.trace_connected passed also with ⟨between, reached⟩ | ⟨between, reached⟩
    · cases reached
      have ended := (ended_of_child orderly retried).run ⟨nofun, nofun⟩ orderly between
      exact (ended.only other again).symm
    · cases reached
      have ended := (ended_of_child later again).run ⟨nofun, nofun⟩ later between
      exact ended.only child retried
  · intro source row child found outcome retried
    obtain ⟨settled, succeeded⟩ := Disposition.concluded outcome
    rcases Run.trace_connected passed also with ⟨between, reached⟩ | ⟨between, reached⟩
    · cases reached
      exact ((ended_of_settled orderly found succeeded).run settled orderly between).only child
        retried
    · cases reached
      have ended := (ended_of_child later retried).run ⟨nofun, nofun⟩ later between
      exact succeeded (ended.row row found).1

/-- A scheduled batch of recipients in their first privacy epoch. -/
def scheduledBatch (id : BatchId) (recipients : List RecipientId) : NewBatch :=
  { batchId := id, operationId := id, channel := .dailyChallenge, mode := .delivery
    effectiveDate := "2026-01-05", variant := "2048"
    recipients := recipients.map fun recipient =>
      { recipientId := recipient, privacyEpoch := some 1, reasonCode := none, slotDate := none }
    parentBatchId := none, settingsRevision := none, scheduled := true }

/-- What a worker reports of a message that arrived. -/
def confirmed : DeliveryResult :=
  { outcome := "sent", reasonCode := "telegram_confirmed", retryable := false
    messageId := some 1 }

/-- A worker sends the message of a batch to one recipient. -/
def sending (id : BatchId) (recipients : List RecipientId) (recipient : RecipientId) : List Act :=
  [.transact (.createBatch (fun _ => true) (scheduledBatch id recipients)),
    .transact (.recordAdmission id
      { state := .accepted, taskId := some (toString id), reasonCode := none
        storageMode := "redis" }),
    .transact (.claimBatch id (toString id) id none),
    .transact (.claimRecipient id recipient id (id + 100)),
    .transact (.startAttempt id id recipient (id + 100) 1),
    .transact (.finishAttempt id (id + 100) confirmed),
    .transact (.finishRecipient id recipient (id + 100) confirmed),
    .transact (.finishBatch id id)]

/-- A message that arrived is not retried. -/
theorem identity_delivered_once_sent :
    ¬ (Run.run (step id) start (sending 1 [7] 7)).journal.Child (1, 7) 2 := by
  have sent : ((Run.run (step id) start (sending 1 [7] 7)).journal.recipients.get? (1, 7)).map
      Recipient.state = some .sent := by
    decide +kernel
  obtain ⟨row, found, state⟩ := Option.map_eq_some_iff.mp sent
  have passed := Run.run_mem_trace (step id) start (sending 1 [7] 7)
  exact (identity_delivered_once id _ _ passed _ passed).2.2 (1, 7) row 2 found (.inl state)

/-- Two enqueues of one date with retention in between reach the recipient twice. -/
theorem identity_delivered_again :
    let acts := sending 1 [7] 7 ++ [.wait (retention + 1), .purge [(1, 7)]] ++ sending 2 [7, 8] 7
    ∃ before ∈ Run.trace (step id) start acts, ∃ after ∈ Run.trace (step id) start acts,
      before.journal.scheduleIdentity (1, 7) = after.journal.scheduleIdentity (2, 7) ∧
        before.journal.scheduleIdentity (1, 7) ≠ none ∧
        before.journal.PossiblyDelivered (1, 7) ∧ after.journal.PossiblyDelivered (2, 7) := by
  decide +kernel

end Archive

end BobbyBotique.Broadcast
