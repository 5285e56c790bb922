import BobbyBotique.Broadcast.Journal

/-!
# Schedule identities

A scheduled recipient has a key made of the channel, the mode, the date, the
variant, the account and its privacy epoch.  Whatever the transactions, one row
has the key; a failed row hands it to its only retry.
-/

namespace BobbyBotique.Broadcast

/-! ## What a transaction leaves in place -/

/-- No transaction leaves this disposition. -/
def Disposition.Settled (state : Disposition) : Prop := state ≠ .pending ∧ state ≠ .started

theorem Disposition.settled_of_failed {state : Disposition} (failed : state = .failed) :
    state.Settled := by
  rw [failed]
  exact ⟨nofun, nofun⟩

/-- A row that ended otherwise than in failure. -/
theorem Disposition.concluded {state : Disposition}
    (outcome : state = .sent ∨ state = .skipped ∨ state = .unknownDelivery) :
    state.Settled ∧ state ≠ .failed := by
  rcases outcome with rfl | rfl | rfl
  all_goals exact ⟨⟨nofun, nofun⟩, nofun⟩

/-- What a row keeps: only a failed row loses its schedule key, and a settled
row stays as it is and becomes no retry again. -/
structure Recipient.Follows (old new : Recipient) : Prop where
  privacyEpoch : new.privacyEpoch = old.privacyEpoch
  slotDate : new.slotDate = old.slotDate
  scheduleKey : new.scheduleKey = old.scheduleKey ∨ new.state = .failed ∧ new.scheduleKey = none
  settled : old.state.Settled →
    new.state = old.state ∧ (new.retryable = true → old.retryable = true)

/-- What a batch keeps. -/
structure Batch.Follows (old new : Batch) : Prop where
  parentBatchId : new.parentBatchId = old.parentBatchId
  channel : new.channel = old.channel
  mode : new.mode = old.mode
  effectiveDate : new.effectiveDate = old.effectiveDate
  variant : new.variant = old.variant
  scheduled : new.scheduled = old.scheduled

theorem Recipient.Follows.refl (row : Recipient) : row.Follows row :=
  ⟨rfl, rfl, .inl rfl, fun _ => ⟨rfl, id⟩⟩

theorem Recipient.Follows.trans {old middle new : Recipient} (before : old.Follows middle)
    (after : middle.Follows new) : old.Follows new := by
  constructor
  · exact after.privacyEpoch.trans before.privacyEpoch
  · exact after.slotDate.trans before.slotDate
  · rcases after.scheduleKey with same | released
    · rcases before.scheduleKey with kept | ⟨failed, gone⟩
      · exact .inl (same.trans kept)
      · have still := (after.settled (Disposition.settled_of_failed failed)).1
        exact .inr ⟨still.trans failed, same.trans gone⟩
    · exact .inr released
  · intro settled
    obtain ⟨same, fewer⟩ := before.settled settled
    obtain ⟨again, fewest⟩ := after.settled (same ▸ settled)
    exact ⟨again.trans same, fewer ∘ fewest⟩

/-- A failed row stays failed, and becomes no retry again. -/
theorem Recipient.Follows.failed {old new : Recipient} (follows : old.Follows new)
    (failed : old.state = .failed) :
    new.state = .failed ∧ (old.retryable = false → new.retryable = false) := by
  obtain ⟨same, fewer⟩ := follows.settled (Disposition.settled_of_failed failed)
  refine ⟨same.trans failed, fun used => Bool.eq_false_iff.mpr fun again => ?_⟩
  cases used.symm.trans (fewer again)

/-- An open row may take any disposition. -/
theorem Recipient.Follows.of_open {old new : Recipient}
    (privacyEpoch : new.privacyEpoch = old.privacyEpoch)
    (slotDate : new.slotDate = old.slotDate) (scheduleKey : new.scheduleKey = old.scheduleKey)
    (waiting : ¬ old.state.Settled) : old.Follows new :=
  ⟨privacyEpoch, slotDate, .inl scheduleKey, fun settled => (waiting settled).elim⟩

theorem Batch.Follows.refl (batch : Batch) : batch.Follows batch := by
  constructor <;> rfl

theorem Batch.Follows.trans {old middle new : Batch} (before : old.Follows middle)
    (after : middle.Follows new) : old.Follows new := by
  constructor
  · exact after.parentBatchId.trans before.parentBatchId
  · exact after.channel.trans before.channel
  · exact after.mode.trans before.mode
  · exact after.effectiveDate.trans before.effectiveDate
  · exact after.variant.trans before.variant
  · exact after.scheduled.trans before.scheduled

namespace Journal

/-- No batch and no row comes or goes, and each keeps what it has to keep. -/
structure Follows (journal next : Journal) : Prop where
  batches : journal.batches.Related Batch.Follows next.batches
  recipients : journal.recipients.Related Recipient.Follows next.recipients

namespace Follows

variable {journal middle next : Journal}

theorem refl (journal : Journal) : journal.Follows journal :=
  ⟨.refl Batch.Follows.refl _, .refl Recipient.Follows.refl _⟩

theorem trans (before : journal.Follows middle) (after : middle.Follows next) :
    journal.Follows next :=
  ⟨before.batches.trans Batch.Follows.trans after.batches,
    before.recipients.trans Recipient.Follows.trans after.recipients⟩

end Follows

/-- The transaction ends in a journal that follows the first one, if it ends. -/
abbrev Leads {A : Type} (journal : Journal) (read : A → Journal) (outcome : Except Violation A) :
    Prop :=
  Ends (fun _ => True) (fun result => journal.Follows (read result)) outcome

variable {journal : Journal} {id : BatchId}

theorem Leads.bind {A B : Type} {read : A → Journal} {final : B → Journal}
    {first : Except Violation A} {rest : A → Except Violation B}
    (leads : journal.Leads read first)
    (next : ∀ result, (read result).Leads final (rest result)) :
    journal.Leads final (first >>= rest) := by
  apply Ends.bind leads
  intro result before
  exact (next result).mono fun _ after => before.trans after

theorem updateBatch_leads (journal : Journal) (id : BatchId) (test : Batch → Bool)
    {set : Batch → Batch} (keeps : ∀ batch : Batch, batch.Follows (set batch)) :
    journal.Leads Prod.fst (journal.updateBatch id test set) := by
  unfold updateBatch
  split
  · exact Follows.refl journal
  · rename_i batch found
    split_ifs
    · trivial
    · exact ⟨.set Batch.Follows.refl found (keeps batch), .refl Recipient.Follows.refl _⟩
    · trivial
    · exact Follows.refl journal

theorem updateRecipient_leads (journal : Journal) (key : BatchId × RecipientId)
    {test : Recipient → Bool} {set : Recipient → Recipient}
    (keeps : ∀ row : Recipient, test row = true → row.Follows (set row)) :
    journal.Leads Prod.fst (journal.updateRecipient key test set) := by
  unfold updateRecipient
  split
  · exact Follows.refl journal
  · rename_i row found
    split_ifs with passes
    · exact ⟨.refl Batch.Follows.refl _, .set Recipient.Follows.refl found (keeps row passes)⟩
    · trivial
    · exact Follows.refl journal

theorem updateRecipients_leads (journal : Journal) (id : BatchId) {test : Recipient → Bool}
    {set : Recipient → Recipient}
    (keeps : ∀ row : Recipient, test row = true → row.Follows (set row)) :
    journal.Leads (fun next => next) (journal.updateRecipients id test set) := by
  unfold updateRecipients
  split_ifs
  · refine ⟨.refl Batch.Follows.refl _, .adjust ?_⟩
    intro key row
    split_ifs with passes
    · exact keeps row passes.2
    · exact .refl row
  · trivial

/-! ## The transactions after the first -/

theorem recordAdmission_leads (journal : Journal) (id : BatchId) (admission : Admission) :
    journal.Leads (fun next => next) (journal.recordAdmission id admission) := by
  apply Leads.bind (updateBatch_leads journal id _ _)
  · rintro ⟨next, _⟩
    dsimp only
    split_ifs
    · apply Leads.bind (updateRecipients_leads next id _)
      · intro rejected
        apply Leads.bind (updateBatch_leads rejected id _ _)
        · rintro ⟨final, _⟩
          exact Follows.refl final
        · intro batch
          constructor <;> rfl
      · intro row pending
        refine .of_open rfl rfl rfl fun settled => settled.1 ?_
        exact beq_iff_eq.mp pending
    · exact Follows.refl next
  · intro batch
    constructor <;> rfl

theorem claimBatch_leads (journal : Journal) (id : BatchId) (task : String) (token : Token)
    (settingsRevision : Option Int) :
    journal.Leads Prod.fst (journal.claimBatch id task token settingsRevision) := by
  apply Leads.bind (updateBatch_leads journal id _ _)
  · rintro ⟨next, row⟩
    dsimp only
    split_ifs
    · apply Leads.bind (updateBatch_leads next id _ _)
      · rintro ⟨final, _⟩
        exact Follows.refl final
      · intro batch
        constructor <;> rfl
    · exact Follows.refl next
  · intro batch
    constructor <;> rfl

theorem claimRecipient_leads (journal : Journal) (id : BatchId) (recipient : RecipientId)
    (batchToken token : Token) :
    journal.Leads Prod.fst (journal.claimRecipient id recipient batchToken token) := by
  apply Leads.bind (updateRecipient_leads journal _ _)
  · rintro ⟨next, row⟩
    dsimp only
    split_ifs
    · apply Leads.bind (updateBatch_leads next id _ _)
      · rintro ⟨final, _⟩
        exact Follows.refl final
      · intro batch
        constructor <;> rfl
    · exact Follows.refl next
  · intro row claims
    refine .of_open rfl rfl rfl fun settled => settled.1 ?_
    exact beq_iff_eq.mp (Bool.and_eq_true_iff.mp claims).2

theorem startAttempt_leads (journal : Journal) (attempt : AttemptId) (id : BatchId)
    (recipient : RecipientId) (token : Token) (sequence : Int) :
    journal.Leads Prod.fst (journal.startAttempt attempt id recipient token sequence) := by
  unfold startAttempt
  split
  · split_ifs
    · trivial
    · trivial
    · exact ⟨.refl Batch.Follows.refl _, .refl Recipient.Follows.refl _⟩
    · exact Follows.refl journal
  · exact Follows.refl journal

theorem finishAttempt_leads (journal : Journal) (id : AttemptId) (token : Token)
    (result : DeliveryResult) :
    journal.Leads Prod.fst (journal.finishAttempt id token result) := by
  unfold finishAttempt
  split
  · exact Follows.refl journal
  · dsimp only
    split
    · split
      · trivial
      · split_ifs
        · exact ⟨.refl Batch.Follows.refl _, .refl Recipient.Follows.refl _⟩
        · trivial
    · exact Follows.refl journal

theorem finishRecipient_leads (journal : Journal) (id : BatchId) (recipient : RecipientId)
    (token : Token) (result : DeliveryResult) :
    journal.Leads Prod.fst (journal.finishRecipient id recipient token result) := by
  unfold finishRecipient
  cases Disposition.ofOutcome result.outcome with
  | none => trivial
  | some outcome =>
    apply Leads.bind (updateRecipient_leads journal _ _)
    · rintro ⟨next, row⟩
      cases row with
      | true =>
        apply Leads.bind (updateBatch_leads next id _ _)
        · rintro ⟨final, _⟩
          exact Follows.refl final
        · intro batch
          cases outcome <;> constructor <;> rfl
      | false => exact Follows.refl next
    · intro row owned
      refine .of_open rfl rfl rfl fun settled => settled.2 ?_
      exact beq_iff_eq.mp (Bool.and_eq_true_iff.mp owned).2

theorem finishBatch_leads (journal : Journal) (id : BatchId) (token : Token) :
    journal.Leads Prod.fst (journal.finishBatch id token) := by
  apply Leads.bind (updateBatch_leads journal id _ _)
  · rintro ⟨next, row⟩
    exact Follows.refl next
  · intro batch
    constructor <;> rfl

theorem interruptBatch_leads (journal : Journal) (id : BatchId) :
    journal.Leads (fun next => next) (journal.interruptBatch id) := by
  have attempts : journal.Leads (fun next => next) (journal.interruptAttempts id) := by
    unfold interruptAttempts
    split_ifs
    · exact ⟨.refl Batch.Follows.refl _, .refl Recipient.Follows.refl _⟩
    · trivial
  apply Leads.bind attempts
  intro next
  apply Leads.bind (updateRecipients_leads next id _)
  · intro interrupted
    apply Leads.bind (updateBatch_leads interrupted id _ _)
    · rintro ⟨final, _⟩
      exact Follows.refl final
    · intro batch
      constructor <;> rfl
  · intro row waiting
    refine .of_open rfl rfl rfl fun settled => ?_
    rcases Bool.or_eq_true_iff.mp waiting with pending | started
    · exact settled.1 (beq_iff_eq.mp pending)
    · exact settled.2 (beq_iff_eq.mp started)

end Journal

/-! ## Schedule identities -/

/-- What the text under a schedule key names. -/
structure ScheduleIdentity where
  channel : Channel
  mode : Mode
  date : String
  variant : String
  recipientId : RecipientId
  privacyEpoch : Int
  deriving DecidableEq, Repr

def ScheduleIdentity.key (sha256 : String → String) (identity : ScheduleIdentity) : String :=
  sha256 (identity.channel.text ++ ":" ++ identity.mode.text ++ ":" ++ identity.date ++ ":" ++
    identity.variant ++ ":" ++ toString identity.recipientId ++ ":" ++
    toString identity.privacyEpoch)

/-- The identity of a recipient's row in its batch. -/
def Batch.identity (batch : Batch) (recipientId : RecipientId) (row : Recipient) :
    ScheduleIdentity :=
  { channel := batch.channel, mode := batch.mode, date := row.slotDate.getD batch.effectiveDate
    variant := batch.variant, recipientId, privacyEpoch := row.privacyEpoch }

theorem Batch.Follows.identity {old new : Batch} {row next : Recipient} (batch : old.Follows new)
    (kept : row.Follows next) (recipientId : RecipientId) :
    new.identity recipientId next = old.identity recipientId row := by
  simp only [Batch.identity, batch.channel, batch.mode, batch.effectiveDate, batch.variant,
    kept.slotDate, kept.privacyEpoch]

theorem scheduleKey_eq (sha256 : String → String) {args : NewBatch} {recipient : Snapshot}
    {epoch : Int} (scheduled : args.scheduled = true)
    (captured : recipient.privacyEpoch = some epoch) :
    scheduleKey sha256 args recipient = some (ScheduleIdentity.key sha256
      { channel := args.channel, mode := args.mode
        date := recipient.slotDate.getD args.effectiveDate, variant := args.variant
        recipientId := recipient.recipientId, privacyEpoch := epoch }) := by
  rw [scheduleKey, if_pos scheduled, captured]
  rfl

namespace Journal

variable {journal next : Journal} {sha256 : String → String}

/-- The batch retries the row and has a row for the same recipient. -/
def Child (journal : Journal) (source : BatchId × RecipientId) (child : BatchId) : Prop :=
  (journal.batches.get? child).bind Batch.parentBatchId = some source.1 ∧
    (journal.recipients.get? (child, source.2)).isSome = true

instance (journal : Journal) (source : BatchId × RecipientId) (child : BatchId) :
    Decidable (journal.Child source child) :=
  inferInstanceAs (Decidable (_ ∧ _))

/-- The invariant of the scheduled rows: a row has the key of its identity
until it fails, a key has one row, and a retried row has failed for good. -/
structure Orderly (sha256 : String → String) (journal : Journal) : Prop where
  placed : ∀ key row, journal.recipients.get? key = some row →
    ∃ batch, journal.batches.get? key.1 = some batch
  rooted : ∀ id batch parent, journal.batches.get? id = some batch →
    batch.parentBatchId = some parent → ∃ source, journal.batches.get? parent = some source
  keyed : ∀ key row batch, journal.recipients.get? key = some row →
    journal.batches.get? key.1 = some batch → batch.scheduled = true →
      row.scheduleKey = some ((batch.identity key.2 row).key sha256) ∨
        row.state = .failed ∧ row.scheduleKey = none
  apart : ∀ first second row other text, journal.recipients.get? first = some row →
    journal.recipients.get? second = some other → row.scheduleKey = some text →
      other.scheduleKey = some text → first = second
  spent : ∀ source child row, journal.Child source child →
    journal.recipients.get? source = some row → row.state = .failed ∧ row.retryable = false
  single : ∀ source first second, journal.Child source first → journal.Child source second →
    first = second

theorem orderly_start (sha256 : String → String) : Orderly sha256 start := by
  constructor
  · intro key row found
    cases found
  · intro id batch parent found
    cases found
  · intro key row batch found
    cases found
  · intro first second row other text found
    cases found
  · intro source child row _ found
    cases found
  · intro source first second child
    cases child.2

/-- Of two rows with one identity, one has failed. -/
theorem Orderly.failed (orderly : Orderly sha256 journal) {first second : BatchId × RecipientId}
    {row other : Recipient} {batch next : Batch} (found : journal.recipients.get? first = some row)
    (there : journal.recipients.get? second = some other)
    (owner : journal.batches.get? first.1 = some batch)
    (holder : journal.batches.get? second.1 = some next) (scheduled : batch.scheduled = true)
    (also : next.scheduled = true)
    (same : next.identity second.2 other = batch.identity first.2 row) (differ : first ≠ second) :
    row.state = .failed ∨ other.state = .failed := by
  rcases orderly.keyed first row batch found owner scheduled with key | ⟨failed, _⟩
  · rcases orderly.keyed second other next there holder also with twin | ⟨failed, _⟩
    · rw [same] at twin
      exact (differ (orderly.apart first second row other _ found there key twin)).elim
    · exact .inr failed
  · exact .inl failed

/-! ## Transactions without new rows -/

theorem Follows.child (follows : journal.Follows next) {source : BatchId × RecipientId}
    {child : BatchId} : next.Child source child ↔ journal.Child source child := by
  have parent : (next.batches.get? child).bind Batch.parentBatchId =
      (journal.batches.get? child).bind Batch.parentBatchId := by
    cases found : journal.batches.get? child with
    | some batch =>
      obtain ⟨kept, there, same⟩ := follows.batches.forth found
      rw [there]
      exact same.parentBatchId
    | none =>
      cases there : next.batches.get? child with
      | none => rfl
      | some batch =>
        obtain ⟨old, present, _⟩ := follows.batches.back there
        cases found.symm.trans present
  have present : (next.recipients.get? (child, source.2)).isSome =
      (journal.recipients.get? (child, source.2)).isSome := by
    apply Bool.eq_iff_iff.mpr
    simp only [Option.isSome_iff_exists]
    constructor
    · rintro ⟨row, there⟩
      obtain ⟨old, found, _⟩ := follows.recipients.back there
      exact ⟨old, found⟩
    · rintro ⟨row, found⟩
      obtain ⟨new, there, _⟩ := follows.recipients.forth found
      exact ⟨new, there⟩
  rw [Child, Child, parent, present]

theorem Follows.orderly (follows : journal.Follows next) (orderly : Orderly sha256 journal) :
    Orderly sha256 next := by
  constructor
  · intro key row there
    obtain ⟨old, found, _⟩ := follows.recipients.back there
    obtain ⟨batch, present⟩ := orderly.placed key old found
    obtain ⟨kept, still, _⟩ := follows.batches.forth present
    exact ⟨kept, still⟩
  · intro id batch parent there named
    obtain ⟨old, found, same⟩ := follows.batches.back there
    obtain ⟨source, present⟩ := orderly.rooted id old parent found (same.parentBatchId ▸ named)
    obtain ⟨kept, still, _⟩ := follows.batches.forth present
    exact ⟨kept, still⟩
  · intro key row batch there owner scheduled
    obtain ⟨old, found, kept⟩ := follows.recipients.back there
    obtain ⟨source, present, same⟩ := follows.batches.back owner
    rw [same.identity kept]
    rcases kept.scheduleKey with unchanged | released
    · rw [unchanged]
      apply (orderly.keyed key old source found present (same.scheduled ▸ scheduled)).imp_right
      rintro ⟨failed, none⟩
      exact ⟨(kept.failed failed).1, none⟩
    · exact .inr released
  · intro first second row other text there too key twin
    obtain ⟨old, found, kept⟩ := follows.recipients.back there
    obtain ⟨peer, present, also⟩ := follows.recipients.back too
    apply orderly.apart first second old peer text found present
    · rcases kept.scheduleKey with unchanged | ⟨_, none⟩
      · exact unchanged ▸ key
      · cases none.symm.trans key
    · rcases also.scheduleKey with unchanged | ⟨_, none⟩
      · exact unchanged ▸ twin
      · cases none.symm.trans twin
  · intro source child row retried there
    obtain ⟨old, found, kept⟩ := follows.recipients.back there
    obtain ⟨failed, used⟩ := orderly.spent source child old (follows.child.mp retried) found
    obtain ⟨still, fixed⟩ := kept.failed failed
    exact ⟨still, fixed used⟩
  · intro source first second child twin
    exact orderly.single source first second (follows.child.mp child) (follows.child.mp twin)

/-! ## A new row -/

/-- The row can be retried. -/
def Retryable (journal : Journal) (source : BatchId × RecipientId) : Prop :=
  ∃ row, journal.recipients.get? source = some row ∧ row.state = .failed ∧ row.retryable = true

/-- The row has been retried. -/
def Used (journal : Journal) (source : BatchId × RecipientId) : Prop :=
  ∃ row, journal.recipients.get? source = some row ∧ row.state = .failed ∧ row.retryable = false

theorem Follows.used (follows : journal.Follows next) {source : BatchId × RecipientId}
    (used : journal.Used source) : next.Used source := by
  obtain ⟨row, found, failed, fixed⟩ := used
  obtain ⟨new, there, kept⟩ := follows.recipients.forth found
  obtain ⟨still, same⟩ := kept.failed failed
  exact ⟨new, there, still, same fixed⟩

/-- A journal with one more row. -/
def insertRow (journal : Journal) (key : BatchId × RecipientId) (row : Recipient) : Journal :=
  { journal with recipients := journal.recipients.set key row }

theorem child_insertRow {key : BatchId × RecipientId} {row : Recipient}
    {source : BatchId × RecipientId} {child : BatchId}
    (retried : (journal.insertRow key row).Child source child) :
    journal.Child source child ∨ key = (child, source.2) ∧
      (journal.batches.get? key.1).bind Batch.parentBatchId = some source.1 := by
  obtain ⟨parent, present⟩ := retried
  simp only [insertRow, Dict.get?_set] at parent present
  split_ifs at present with same
  · exact .inr ⟨same.symm, same ▸ parent⟩
  · exact .inl ⟨parent, present⟩

theorem Orderly.insertRow (orderly : Orderly sha256 journal) {id : BatchId}
    {recipient : RecipientId} {row : Recipient} {batch : Batch}
    (owner : journal.batches.get? id = some batch)
    (keyed : batch.scheduled = true →
      row.scheduleKey = some ((batch.identity recipient row).key sha256))
    (free : ∀ key other text, journal.recipients.get? key = some other →
      row.scheduleKey = some text → other.scheduleKey ≠ some text)
    (childless : ∀ child other, journal.batches.get? child = some other →
      other.parentBatchId ≠ some id)
    (source : ∀ parent, batch.parentBatchId = some parent → journal.Used (parent, recipient))
    (only : ∀ parent child, batch.parentBatchId = some parent →
      ¬ journal.Child (parent, recipient) child) :
    Orderly sha256 (journal.insertRow (id, recipient) row) := by
  have unretried : ∀ child,
      ¬ (journal.insertRow (id, recipient) row).Child (id, recipient) child := by
    rintro child ⟨parent, _⟩
    obtain ⟨other, there, named⟩ := Option.bind_eq_some_iff.mp parent
    exact childless child other there named
  constructor
  · intro key other there
    simp only [Journal.insertRow, Dict.get?_set] at there
    split_ifs at there with same
    · cases same
      exact ⟨batch, owner⟩
    · exact orderly.placed key other there
  · exact orderly.rooted
  · intro key other holder there owns scheduled
    simp only [Journal.insertRow, Dict.get?_set] at there
    split_ifs at there with same
    · cases same
      cases there
      cases owner.symm.trans owns
      exact .inl (keyed scheduled)
    · exact orderly.keyed key other holder there owns scheduled
  · intro first second one two text there too key twin
    simp only [Journal.insertRow, Dict.get?_set] at there too
    split_ifs at there too with same also also
    · exact same.trans also.symm
    · cases there
      exact (free second two text too key twin).elim
    · cases too
      exact (free first one text there twin key).elim
    · exact orderly.apart first second one two text there too key twin
  · intro origin child other retried there
    rcases child_insertRow retried with old | ⟨same, parent⟩
    · simp only [Journal.insertRow, Dict.get?_set] at there
      split_ifs at there with new
      · rw [new] at retried
        exact (unretried child retried).elim
      · exact orderly.spent origin child other old there
    · cases same
      have named : batch.parentBatchId = some origin.1 := by
        rw [owner] at parent
        exact parent
      obtain ⟨used, found, failed, fixed⟩ := source origin.1 named
      simp only [Journal.insertRow, Dict.get?_set] at there
      split_ifs at there with new
      · rw [new] at retried
        exact (unretried _ retried).elim
      · cases found.symm.trans there
        exact ⟨failed, fixed⟩
  · intro origin first second retried also
    have fresh : ∀ {child other}, (id, recipient) = (child, origin.2) →
        (journal.batches.get? id).bind Batch.parentBatchId = some origin.1 →
        ¬ journal.Child origin other := by
      intro child other same parent old
      cases same
      rw [owner] at parent
      exact only origin.1 other parent old
    rcases child_insertRow retried with old | ⟨same, parent⟩
    · rcases child_insertRow also with older | ⟨twin, named⟩
      · exact orderly.single origin first second old older
      · exact (fresh twin named old).elim
    · rcases child_insertRow also with older | ⟨twin, _⟩
      · exact (fresh same parent older).elim
      · exact (congrArg Prod.fst same).symm.trans (congrArg Prod.fst twin)

/-- What every transaction does: nothing is lost, the rows of a batch come with
it, and a retry comes from a row that could be retried. -/
structure Advances (journal next : Journal) : Prop where
  batches : ∀ id batch, journal.batches.get? id = some batch →
    ∃ new, next.batches.get? id = some new ∧ batch.Follows new
  recipients : ∀ key row, journal.recipients.get? key = some row →
    ∃ new, next.recipients.get? key = some new ∧ row.Follows new
  fresh : ∀ key row batch, next.recipients.get? key = some row →
    journal.batches.get? key.1 = some batch → ∃ old, journal.recipients.get? key = some old
  children : ∀ source child, next.Child source child →
    journal.Child source child ∨ journal.Retryable source

theorem Follows.advances (follows : journal.Follows next) : journal.Advances next := by
  constructor
  · exact fun id batch => follows.batches.forth
  · exact fun key row => follows.recipients.forth
  · intro key row batch there _
    obtain ⟨old, found, _⟩ := follows.recipients.back there
    exact ⟨old, found⟩
  · exact fun source child retried => .inl (follows.child.mp retried)

theorem Advances.follow {middle : Journal} (advances : journal.Advances middle)
    (follows : middle.Follows next) : journal.Advances next := by
  constructor
  · intro id batch found
    obtain ⟨kept, there, before⟩ := advances.batches id batch found
    obtain ⟨new, still, after⟩ := follows.batches.forth there
    exact ⟨new, still, before.trans after⟩
  · intro key row found
    obtain ⟨kept, there, before⟩ := advances.recipients key row found
    obtain ⟨new, still, after⟩ := follows.recipients.forth there
    exact ⟨new, still, before.trans after⟩
  · intro key row batch there known
    obtain ⟨old, found, _⟩ := follows.recipients.back there
    exact advances.fresh key old batch found known
  · intro source child retried
    exact advances.children source child (follows.child.mp retried)

/-! ## Creating a batch -/

/-- The journal while the recipients of a new batch are inserted; `rest` are
those still to come, and `before` is the journal the transaction began with. -/
structure Inserting (sha256 : String → String) (before : Journal) (args : NewBatch)
    (rest : List Snapshot) (journal : Journal) : Prop where
  orderly : Orderly sha256 journal
  advances : before.Advances journal
  unknown : before.batches.get? args.batchId = none
  owner : ∃ recipients batch, journal.batches.get? args.batchId = some batch ∧
    (NewBatch.row args recipients).Follows batch
  childless : ∀ child other, journal.batches.get? child = some other →
    other.parentBatchId ≠ some args.batchId
  others : ∀ source child, journal.Child source child → child ≠ args.batchId →
    before.Child source child
  sources : ∀ recipient ∈ rest, ∀ parent, args.parentBatchId = some parent →
    before.Retryable (parent, recipient.recipientId) ∧ journal.Used (parent, recipient.recipientId)

variable {before : Journal} {args : NewBatch} {rest : List Snapshot}

theorem Inserting.follow (inserting : Inserting sha256 before args rest journal)
    (follows : journal.Follows next) : Inserting sha256 before args rest next := by
  constructor
  · exact follows.orderly inserting.orderly
  · exact inserting.advances.follow follows
  · exact inserting.unknown
  · obtain ⟨recipients, batch, found, same⟩ := inserting.owner
    obtain ⟨new, there, kept⟩ := follows.batches.forth found
    exact ⟨recipients, new, there, same.trans kept⟩
  · intro child other there named
    obtain ⟨old, found, same⟩ := follows.batches.back there
    exact inserting.childless child old found (same.parentBatchId ▸ named)
  · intro source child retried
    exact inserting.others source child (follows.child.mp retried)
  · intro recipient listed parent named
    obtain ⟨retryable, used⟩ := inserting.sources recipient listed parent named
    exact ⟨retryable, follows.used used⟩

theorem Inserting.skip {recipient : Snapshot}
    (inserting : Inserting sha256 before args (recipient :: rest) journal) :
    Inserting sha256 before args rest journal :=
  { inserting with
    sources := fun other listed => inserting.sources other (List.mem_cons_of_mem _ listed) }

/-- The row of an eligible recipient that conflicts with no other. -/
theorem Inserting.insert {recipient : Snapshot} {epoch : Int} (sound : Orderly sha256 before)
    (inserting : Inserting sha256 before args (recipient :: rest) journal)
    (captured : recipient.privacyEpoch = some epoch)
    (free : journal.conflicts args recipient (scheduleKey sha256 args recipient) = false) :
    Inserting sha256 before args rest (journal.insertRow (args.batchId, recipient.recipientId)
      { channel := args.channel, privacyEpoch := epoch
        scheduleKey := scheduleKey sha256 args recipient, slotDate := recipient.slotDate
        state := .pending, ownerToken := none, reasonCode := none, retryable := false
        messageId := none }) := by
  obtain ⟨recipients, batch, owner, same⟩ := inserting.owner
  obtain ⟨absent, unheld⟩ := Bool.or_eq_false_iff.mp free
  have missing : journal.recipients.get? (args.batchId, recipient.recipientId) = none :=
    Option.not_isSome_iff_eq_none.mp (Bool.eq_false_iff.mp absent)
  have waiting := inserting.sources recipient List.mem_cons_self
  have named : ∀ parent, batch.parentBatchId = some parent → args.parentBatchId = some parent := by
    intro parent known
    exact same.parentBatchId.symm.trans known
  constructor
  · apply inserting.orderly.insertRow owner
    · intro scheduled
      rw [scheduleKey_eq sha256 (same.scheduled.symm.trans scheduled) captured]
      simp only [Batch.identity, same.channel, same.mode, same.effectiveDate, same.variant]
      rfl
    · intro key other text found held twin
      dsimp only at held
      rw [held] at unheld
      have taken := (journal.recipients.mem_values_iff other).mpr ⟨key, found⟩
      have clash : (journal.recipients.values.any fun row => row.scheduleKey == some text) = true :=
        List.any_eq_true.mpr ⟨other, taken, beq_iff_eq.mpr twin⟩
      rw [clash] at unheld
      cases unheld
    · exact inserting.childless
    · intro parent known
      exact (waiting parent (named parent known)).2
    · intro parent child known retried
      obtain ⟨row, found, _, again⟩ := (waiting parent (named parent known)).1
      by_cases mine : child = args.batchId
      · rw [Child, mine, missing] at retried
        cases retried.2
      · have spent := sound.spent _ child row (inserting.others _ child retried mine) found
        cases again.symm.trans spent.2
  · constructor
    · exact inserting.advances.batches
    · intro key row found
      obtain ⟨kept, there, follows⟩ := inserting.advances.recipients key row found
      refine ⟨kept, ?_, follows⟩
      rw [insertRow, Dict.get?_set_ne _ _ fun equal => ?_]
      · exact there
      · rw [equal, missing] at there
        cases there
    · intro key row known there found
      simp only [insertRow, Dict.get?_set] at there
      split_ifs at there with equal
      · rw [equal, inserting.unknown] at found
        cases found
      · exact inserting.advances.fresh key row known there found
    · rintro ⟨source, retrier⟩ child retried
      rcases child_insertRow retried with old | ⟨equal, parent⟩
      · exact inserting.advances.children (source, retrier) child old
      · cases equal
        rw [owner] at parent
        exact .inr (waiting source (named source parent)).1
  · exact inserting.unknown
  · exact ⟨recipients, batch, owner, same⟩
  · exact inserting.childless
  · intro source child retried mine
    rcases child_insertRow retried with old | ⟨equal, _⟩
    · exact inserting.others source child old mine
    · exact (mine (congrArg Prod.fst equal).symm).elim
  · intro other listed parent known
    obtain ⟨retryable, row, found, failed, fixed⟩ :=
      inserting.sources other (List.mem_cons_of_mem _ listed) parent known
    refine ⟨retryable, row, ?_, failed, fixed⟩
    rw [insertRow, Dict.get?_set_ne _ _ fun equal => ?_]
    · exact found
    · rw [equal, missing] at found
      cases found

theorem releaseScheduleKey_leads (journal : Journal) (args : NewBatch) (recipient : Snapshot)
    (key : Option String) :
    journal.Leads Prod.fst (journal.releaseScheduleKey args recipient key) := by
  unfold releaseScheduleKey
  split
  · apply updateRecipient_leads
    intro row passes
    have failed := beq_iff_eq.mp (Bool.and_eq_true_iff.mp passes).1
    exact ⟨rfl, rfl, .inr ⟨failed, rfl⟩, fun _ => ⟨rfl, id⟩⟩
  · exact Follows.refl journal

theorem insertRecipient_inserts (users : RecipientId → Bool) {recipient : Snapshot}
    (sound : Orderly sha256 before)
    (inserting : Inserting sha256 before args (recipient :: rest) journal) :
    Ends (fun _ => True) (Inserting sha256 before args rest)
      (insertRecipient sha256 users args journal recipient) := by
  have skips : ∀ freed : Journal, journal.Follows freed →
      Ends (fun _ => True) (Inserting sha256 before args rest) (do
        let changed ← freed.updateBatch args.batchId (fun _ => true) fun batch =>
          { batch with pending := batch.pending - 1, skipped := batch.skipped + 1 }
        return changed.1) := by
    intro freed follows
    apply Ends.bind (updateBatch_leads freed args.batchId _ _)
    · rintro ⟨final, _⟩ after
      exact inserting.skip.follow (follows.trans after)
    · intro batch
      constructor <;> rfl
  unfold insertRecipient
  apply Ends.bind (releaseScheduleKey_leads journal args recipient _)
  rintro ⟨freed, _⟩ follows
  dsimp only at follows ⊢
  split
  · split
    · trivial
    · rename_i epoch captured
      split
      · exact skips freed follows
      · rename_i clash
        exact (inserting.follow follows).insert sound captured (Bool.eq_false_iff.mpr clash)
  · exact skips freed follows

/-- A recipient that stays eligible has used up a row that could be retried. -/
theorem consume_follows (parent : BatchId) (recipients : List Snapshot) (journal : Journal) :
    let (after, _, marked) := consume parent journal recipients
    journal.Follows after ∧ ∀ recipient ∈ marked, recipient.reasonCode.isNone = true →
      journal.Retryable (parent, recipient.recipientId) ∧
        after.Used (parent, recipient.recipientId) := by
  induction recipients generalizing journal with
  | nil => exact ⟨.refl journal, fun _ member => absurd member List.not_mem_nil⟩
  | cons recipient rest ih =>
    simp only [consume]
    split
    · rename_i row used
      obtain ⟨found, passes⟩ := Option.filter_eq_some_iff.mp used
      simp only [Bool.and_eq_true, beq_iff_eq] at passes
      obtain ⟨follows, eligible⟩ :=
        ih (journal.insertRow (parent, recipient.recipientId) { row with retryable := false })
      have first : journal.Follows (journal.insertRow (parent, recipient.recipientId)
          { row with retryable := false }) := by
        refine ⟨.refl Batch.Follows.refl _, .set Recipient.Follows.refl found ?_⟩
        exact ⟨rfl, rfl, .inl rfl, fun _ => ⟨rfl, fun retryable => by cases retryable⟩⟩
      refine ⟨first.trans follows, ?_⟩
      intro other listed free
      rcases List.mem_cons.mp listed with same | later
      · rw [same]
        refine ⟨⟨row, found, passes⟩, follows.used ⟨{ row with retryable := false }, ?_, ?_⟩⟩
        · rw [insertRow, Dict.get?_set_self]
        · exact ⟨passes.1, rfl⟩
      · obtain ⟨⟨source, there, failed, again⟩, done⟩ := eligible other later free
        refine ⟨⟨source, ?_, failed, again⟩, done⟩
        simp only [insertRow, Dict.get?_set] at there
        split_ifs at there with same
        · cases there
          cases again
        · exact there
    · obtain ⟨follows, eligible⟩ := ih journal
      refine ⟨follows, ?_⟩
      intro other listed free
      rcases List.mem_cons.mp listed with same | later
      · rw [same] at free
        split_ifs at free with open_
        · cases free
        · exact (open_ free).elim
      · exact eligible other later free

theorem consumeParent_leads (journal : Journal) (args : NewBatch) :
    Ends (fun _ => True) (fun result => journal.Follows result.1 ∧
        ∀ recipient ∈ result.2, recipient.reasonCode.isNone = true →
          ∀ parent, args.parentBatchId = some parent →
            journal.Retryable (parent, recipient.recipientId) ∧
              result.1.Used (parent, recipient.recipientId))
      (journal.consumeParent args) := by
  unfold consumeParent
  split
  · rename_i orphan
    refine ⟨.refl journal, ?_⟩
    intro recipient _ _ parent named
    cases orphan.symm.trans named
  · rename_i parent known
    obtain ⟨follows, eligible⟩ := consume_follows parent args.recipients journal
    dsimp only
    apply Ends.bind (updateBatch_leads _ parent _ _)
    · rintro ⟨next, _⟩ after
      refine ⟨follows.trans after, ?_⟩
      intro recipient listed free other named
      cases known.symm.trans named
      obtain ⟨retryable, used⟩ := eligible recipient listed free
      exact ⟨retryable, after.used used⟩
    · intro batch
      constructor <;> rfl

/-- The journal with one batch more. -/
abbrev inserted (journal : Journal) (id : BatchId) (row : Batch) : Journal :=
  { journal with batches := journal.batches.set id row }

theorem inserted_old {id other : BatchId} {row batch : Batch}
    (there : (journal.inserted id row).batches.get? other = some batch) :
    other = id ∧ batch = row ∨ journal.batches.get? other = some batch := by
  rw [Dict.get?_set] at there
  split_ifs at there with same
  · cases there
    exact .inl ⟨same, rfl⟩
  · exact .inr there

theorem inserted_kept {id other : BatchId} {row batch : Batch}
    (missing : journal.batches.get? id = none) (found : journal.batches.get? other = some batch) :
    (journal.inserted id row).batches.get? other = some batch := by
  rw [Dict.get?_set_ne _ _ fun same => ?_]
  · exact found
  · rw [same, missing] at found
    cases found

/-- A batch that is not there has no row. -/
theorem Orderly.vacant (orderly : Orderly sha256 journal) {id : BatchId}
    (missing : journal.batches.get? id = none) (recipient : RecipientId) :
    journal.recipients.get? (id, recipient) = none := by
  cases found : journal.recipients.get? (id, recipient) with
  | none => rfl
  | some row =>
    obtain ⟨batch, present⟩ := orderly.placed _ row found
    cases missing.symm.trans present

theorem Orderly.inserted_child (orderly : Orderly sha256 journal) {id : BatchId} {row : Batch}
    (missing : journal.batches.get? id = none) {source : BatchId × RecipientId} {child : BatchId}
    (retried : (journal.inserted id row).Child source child) : journal.Child source child := by
  obtain ⟨parent, present⟩ := retried
  obtain ⟨batch, there, named⟩ := Option.bind_eq_some_iff.mp parent
  rcases inserted_old there with ⟨same, _⟩ | found
  · rw [same, orderly.vacant missing] at present
    cases present
  · exact ⟨Option.bind_eq_some_iff.mpr ⟨batch, found, named⟩, present⟩

/-- A batch without rows whose parent is there keeps the journal orderly. -/
theorem Orderly.insert (orderly : Orderly sha256 journal) {id : BatchId} {row : Batch}
    (missing : journal.batches.get? id = none)
    (parented : ∀ parent, row.parentBatchId = some parent →
      ∃ source, journal.batches.get? parent = some source) :
    Orderly sha256 (journal.inserted id row) := by
  constructor
  · intro key recipient found
    obtain ⟨batch, present⟩ := orderly.placed key recipient found
    exact ⟨batch, inserted_kept missing present⟩
  · intro other batch parent there named
    rcases inserted_old there with ⟨_, same⟩ | found
    · rw [same] at named
      obtain ⟨source, present⟩ := parented parent named
      exact ⟨source, inserted_kept missing present⟩
    · obtain ⟨source, present⟩ := orderly.rooted other batch parent found named
      exact ⟨source, inserted_kept missing present⟩
  · intro key recipient batch found there
    rcases inserted_old there with ⟨same, _⟩ | owner
    · obtain ⟨batch, present⟩ := orderly.placed key recipient found
      rw [same, missing] at present
      cases present
    · exact orderly.keyed key recipient batch found owner
  · exact orderly.apart
  · intro source retrier recipient retried
    exact orderly.spent source retrier recipient (orderly.inserted_child missing retried)
  · intro source first second retried again
    exact orderly.single source first second (orderly.inserted_child missing retried)
      (orderly.inserted_child missing again)

theorem Follows.insert {before : Journal} (follows : before.Follows journal)
    (orderly : Orderly sha256 journal) {id : BatchId} {row : Batch}
    (missing : journal.batches.get? id = none) : before.Advances (journal.inserted id row) := by
  constructor
  · intro other batch found
    obtain ⟨new, there, same⟩ := follows.batches.forth found
    exact ⟨new, inserted_kept missing there, same⟩
  · intro key recipient found
    exact follows.recipients.forth found
  · intro key recipient batch there _
    obtain ⟨source, found, _⟩ := follows.recipients.back there
    exact ⟨source, found⟩
  · intro source retrier retried
    exact .inl (follows.child.mp (orderly.inserted_child missing retried))

/-- A new batch has no row, and no batch retries it. -/
theorem insertBatch_inserts {before : Journal} (sound : Orderly sha256 before)
    (follows : before.Follows journal) (args : NewBatch) {recipients eligible : List Snapshot}
    (sources : ∀ recipient ∈ eligible, ∀ parent, args.parentBatchId = some parent →
      before.Retryable (parent, recipient.recipientId) ∧
        journal.Used (parent, recipient.recipientId)) :
    Ends (fun _ => True) (Inserting sha256 before args eligible)
      (journal.insertBatch args (NewBatch.row args recipients)) := by
  have orderly := follows.orderly sound
  unfold insertBatch
  split_ifs with unchecked taken orphan
  · trivial
  · trivial
  · trivial
  · have missing : journal.batches.get? args.batchId = none := by
      simpa [Dict.contains] using taken
    have rootless : args.parentBatchId ≠ some args.batchId := by
      intro own
      rw [own] at orphan
      exact orphan (by simp [Dict.contains, missing])
    constructor
    · apply orderly.insert missing
      intro parent named
      have known : journal.batches.contains parent = true := by
        simpa [show args.parentBatchId = some parent from named] using orphan
      exact Option.isSome_iff_exists.mp known
    · exact follows.insert orderly missing
    · cases found : before.batches.get? args.batchId with
      | none => rfl
      | some batch =>
        obtain ⟨new, there, _⟩ := follows.batches.forth found
        cases missing.symm.trans there
    · exact ⟨recipients, _, Dict.get?_set_self _ _ _, .refl _⟩
    · intro retrier batch there named
      rcases inserted_old there with ⟨_, same⟩ | found
      · rw [same] at named
        exact rootless named
      · obtain ⟨source, present⟩ := orderly.rooted retrier batch args.batchId found named
        cases missing.symm.trans present
    · intro source retrier retried _
      exact follows.child.mp (orderly.inserted_child missing retried)
    · exact sources

theorem createBatch_advances (sound : Orderly sha256 journal) (users : RecipientId → Bool)
    (args : NewBatch) :
    Ends (fun _ => True) (fun result => Orderly sha256 result.1 ∧ journal.Advances result.1)
      (journal.createBatch sha256 users args) := by
  have stays : Orderly sha256 journal ∧ journal.Advances journal :=
    ⟨sound, (Follows.refl journal).advances⟩
  unfold createBatch
  split
  · exact stays
  · split
    · exact stays
    · apply Ends.bind (consumeParent_leads journal args)
      rintro ⟨consumed, recipients⟩ ⟨follows, eligible⟩
      dsimp only at follows eligible ⊢
      have sources : ∀ recipient ∈ recipients.filter fun recipient => recipient.reasonCode.isNone,
          ∀ parent, args.parentBatchId = some parent →
            journal.Retryable (parent, recipient.recipientId) ∧
              consumed.Used (parent, recipient.recipientId) := by
        intro recipient listed
        obtain ⟨member, free⟩ := List.mem_filter.mp listed
        exact eligible recipient member free
      apply Ends.bind (insertBatch_inserts sound follows args sources)
      · intro inserted initial
        apply (Ends.foldlM (fun next recipient rest => insertRecipient_inserts users sound) _
          initial).bind
        intro final done
        exact ⟨done.orderly, done.advances⟩

/-! ## Every transaction -/

theorem transact_advances (sound : Orderly sha256 journal) (label : Label) :
    Ends (fun _ => True) (fun next => Orderly sha256 next ∧ journal.Advances next)
      (journal.transact sha256 label) := by
  have follows : ∀ {outcome : Except Violation Journal},
      journal.Leads (fun next => next) outcome →
      Ends (fun _ => True) (fun next => Orderly sha256 next ∧ journal.Advances next) outcome := by
    intro outcome leads
    exact leads.mono fun next after => ⟨after.orderly sound, after.advances⟩
  cases label with
  | createBatch users args => exact (createBatch_advances sound users args).map
  | recordAdmission id admission => exact follows (recordAdmission_leads journal id admission)
  | claimBatch id task token settingsRevision =>
    exact follows (claimBatch_leads journal id task token settingsRevision).map
  | claimRecipient id recipient batchToken token =>
    exact follows (claimRecipient_leads journal id recipient batchToken token).map
  | startAttempt attempt id recipient token sequence =>
    exact follows (startAttempt_leads journal attempt id recipient token sequence).map
  | finishAttempt id token result =>
    exact follows (finishAttempt_leads journal id token result).map
  | finishRecipient id recipient token result =>
    exact follows (finishRecipient_leads journal id recipient token result).map
  | finishBatch id token => exact follows (finishBatch_leads journal id token).map
  | interruptBatch id => exact follows (interruptBatch_leads journal id)

/-- A transaction that is rolled back changes nothing. -/
theorem step_advances (sound : Orderly sha256 journal) (label : Label) :
    Orderly sha256 (journal.step sha256 label) ∧
      journal.Advances (journal.step sha256 label) := by
  have ends := transact_advances sound label
  unfold step
  cases outcome : journal.transact sha256 label with
  | ok next =>
    rw [outcome] at ends
    exact ends
  | error violation => exact ⟨sound, (Follows.refl journal).advances⟩

/-! ## Identities over a run -/

/-- The identity of a row of a scheduled batch. -/
def scheduleIdentity (journal : Journal) (key : BatchId × RecipientId) :
    Option ScheduleIdentity :=
  match journal.batches.get? key.1, journal.recipients.get? key with
  | some batch, some row => if batch.scheduled then some (batch.identity key.2 row) else none
  | _, _ => none

/-- The recipient may have the message. -/
def PossiblyDelivered (journal : Journal) (key : BatchId × RecipientId) : Prop :=
  ∃ row ∈ journal.recipients.get? key, row.state = .sent ∨ row.state = .unknownDelivery

instance (journal : Journal) (key : BatchId × RecipientId) :
    Decidable (journal.PossiblyDelivered key) :=
  inferInstanceAs (Decidable (∃ row ∈ journal.recipients.get? key, _))

theorem scheduleIdentity_eq_some {key : BatchId × RecipientId} {identity : ScheduleIdentity} :
    journal.scheduleIdentity key = some identity ↔ ∃ batch row,
      journal.batches.get? key.1 = some batch ∧ journal.recipients.get? key = some row ∧
        batch.scheduled = true ∧ batch.identity key.2 row = identity := by
  unfold scheduleIdentity
  constructor
  · intro named
    split at named
    · rename_i batch row owner found
      split_ifs at named with scheduled
      cases named
      exact ⟨batch, row, owner, found, scheduled, rfl⟩
    · cases named
  · rintro ⟨batch, row, owner, found, scheduled, rfl⟩
    rw [owner, found]
    exact if_pos scheduled

/-- Two rows of one identity are not both possibly delivered. -/
theorem Orderly.one_delivered (orderly : Orderly sha256 journal)
    {first second : BatchId × RecipientId} {identity : ScheduleIdentity}
    (named : journal.scheduleIdentity first = some identity)
    (also : journal.scheduleIdentity second = some identity)
    (delivered : journal.PossiblyDelivered first) (differ : first ≠ second) :
    ∃ row, journal.recipients.get? second = some row ∧ row.state = .failed := by
  obtain ⟨batch, row, owner, found, scheduled, rfl⟩ := scheduleIdentity_eq_some.mp named
  obtain ⟨next, other, holder, there, too, same⟩ := scheduleIdentity_eq_some.mp also
  obtain ⟨seen, present, outcome⟩ := delivered
  cases found.symm.trans present
  rcases orderly.failed found there owner holder scheduled too same differ with failed | failed
  · exact ((Disposition.concluded (outcome.imp_right .inr)).2 failed).elim
  · exact ⟨other, there, failed⟩

/-- Deleting rows keeps the invariant. -/
theorem Orderly.delete (orderly : Orderly sha256 journal)
    (keep : BatchId × RecipientId → Recipient → Bool) (attempts : Dict AttemptId Attempt) :
    Orderly sha256 ⟨journal.batches, journal.recipients.retain keep, attempts⟩ := by
  have old : ∀ {key row}, (journal.recipients.retain keep).get? key = some row →
      journal.recipients.get? key = some row := by
    intro key row there
    exact ((journal.recipients.get?_retain_eq_some keep key row).mp there).1
  have child : ∀ {source child}, Child
      ⟨journal.batches, journal.recipients.retain keep, attempts⟩ source child →
        journal.Child source child := by
    rintro source child ⟨parent, present⟩
    obtain ⟨row, there⟩ := Option.isSome_iff_exists.mp present
    exact ⟨parent, Option.isSome_iff_exists.mpr ⟨row, old there⟩⟩
  constructor
  · exact fun key row there => orderly.placed key row (old there)
  · exact orderly.rooted
  · exact fun key row batch there => orderly.keyed key row batch (old there)
  · intro first second row other text there too
    exact orderly.apart first second row other text (old there) (old too)
  · intro source retrier row retried there
    exact orderly.spent source retrier row (child retried) (old there)
  · intro source first second retried again
    exact orderly.single source first second (child retried) (child again)

end Journal

end BobbyBotique.Broadcast
