import BobbyBotique.Broadcast.Journal
import Mathlib.Data.Int.Basic
import Mathlib.Tactic.SplitIfs

/-!
# The counters of a batch

Every transaction moves the counters of a batch together with its recipient
rows.  Inside `create_batch` the two are apart for a while: the recipients that
are still to be inserted are counted already, and rows of the parent are used
up before its counter is.  `Reconciled` carries both differences.
-/

namespace BobbyBotique.Broadcast

abbrev Rows := Dict (BatchId × RecipientId) Recipient

/-- The number of recipient rows of a batch that pass a test. -/
def number (rows : Rows) (id : BatchId) (test : Recipient → Bool) : Int :=
  rows.total fun key row => if key.1 = id ∧ test row = true then 1 else 0

def inState (state : Disposition) (row : Recipient) : Bool := row.state == state

/-- A failed row that may be retried. -/
def stillRetryable (row : Recipient) : Bool := row.state == .failed && row.retryable

section Numbers

variable {rows : Rows} {id : BatchId} {test : Recipient → Bool}

theorem number_nonneg (rows : Rows) (id : BatchId) (test : Recipient → Bool) :
    0 ≤ number rows id test := by
  apply List.sum_nonneg
  intro weight member
  obtain ⟨item, _, rfl⟩ := List.mem_map.mp member
  dsimp only
  split <;> decide

theorem number_set {key : BatchId × RecipientId} {row : Recipient}
    (found : rows.get? key = some row) (new : Recipient) (id : BatchId)
    (test : Recipient → Bool) :
    number (rows.set key new) id test + (if key.1 = id ∧ test row = true then 1 else 0) =
      number rows id test + (if key.1 = id ∧ test new = true then 1 else 0) := by
  have moved := rows.total_set (M := Int)
    (fun key row => if key.1 = id ∧ test row = true then 1 else 0) key new
  unfold number
  simpa only [Dict.weightAt, found, Option.elim_some] using moved

/-- A row of the batch changes. -/
theorem number_move {recipient : RecipientId} {row : Recipient}
    (found : rows.get? (id, recipient) = some row) (new : Recipient) (test : Recipient → Bool) :
    number (rows.set (id, recipient) new) id test =
      number rows id test - (if test row = true then 1 else 0) +
        if test new = true then 1 else 0 := by
  have moved := number_set found new id test
  simp only [true_and] at moved
  omega

/-- A row of one batch does not count for another. -/
theorem number_set_ne {recipient : RecipientId} {row : Recipient}
    (found : rows.get? (id, recipient) = some row) (new : Recipient) {other : BatchId}
    (apart : other ≠ id) (test : Recipient → Bool) :
    number (rows.set (id, recipient) new) other test = number rows other test := by
  have moved := number_set found new other test
  have elsewhere : ¬ id = other := fun same => apart same.symm
  simpa only [elsewhere, false_and, if_false, add_zero] using moved

theorem number_insert {key : BatchId × RecipientId} (missing : rows.get? key = none)
    (new : Recipient) (id : BatchId) (test : Recipient → Bool) :
    number (rows.set key new) id test =
      number rows id test + (if key.1 = id ∧ test new = true then 1 else 0) := by
  have moved := rows.total_set (M := Int)
    (fun key row => if key.1 = id ∧ test row = true then 1 else 0) key new
  unfold number
  simpa only [Dict.weightAt, missing, Option.elim_none, add_zero] using moved

theorem number_none (rows : Rows) (id : BatchId) : number rows id (fun _ => false) = 0 := by
  simp [number, Dict.total]

/-- A batch of which no row passes the test. -/
theorem number_eq_zero (none : ∀ recipient row, rows.get? (id, recipient) = some row →
    test row = false) : number rows id test = 0 := by
  apply List.sum_eq_zero
  intro weight member
  obtain ⟨⟨⟨batch, recipient⟩, row⟩, listed, rfl⟩ := List.mem_map.mp member
  apply if_neg
  rintro ⟨rfl, counts⟩
  have fails := none recipient row ((rows.mem_items_iff _ row).mp listed)
  exact Bool.false_ne_true (fails.symm.trans counts)

/-- A batch without rows. -/
theorem number_empty (none : ∀ key row, rows.get? key = some row → key.1 ≠ id) :
    number rows id test = 0 :=
  number_eq_zero fun recipient row found => absurd rfl (none (id, recipient) row found)

/-- A batch without rows in a state. -/
theorem number_zero {state : Disposition}
    (none : ∀ recipient row, rows.get? (id, recipient) = some row → row.state ≠ state) :
    number rows id (inState state) = 0 :=
  number_eq_zero fun recipient row found => beq_eq_false_iff_ne.mpr (none recipient row found)

/-- A row that counts. -/
theorem number_pos {key : BatchId × RecipientId} {row : Recipient}
    (found : rows.get? key = some row) (counts : test row = true) :
    0 < number rows key.1 test := by
  have moved := rows.total_del (M := Int)
    (fun other row => if other.1 = key.1 ∧ test row = true then 1 else 0) key
  simp only [Dict.weightAt, found, Option.elim_some, counts, and_self, if_true] at moved
  have rest := number_nonneg (rows.del key) key.1 test
  unfold number at rest ⊢
  omega

/-- The rows an UPDATE touches, for the batch itself: the new rows that pass a
test are the old ones that pass one of two. -/
theorem number_update {update first second : Recipient → Bool} {set : Recipient → Recipient}
    (splits : ∀ row, (if test (if update row = true then set row else row) = true then (1 : Int)
      else 0) = (if first row = true then 1 else 0) + if second row = true then 1 else 0) :
    number (rows.adjust fun key row => if key.1 = id ∧ update row = true then set row else row)
      id test = number rows id first + number rows id second := by
  simp only [number, Dict.total_adjust]
  rw [← Dict.total_add]
  congr 1
  funext key row
  by_cases same : key.1 = id
  · simpa only [same, true_and] using splits row
  · simp only [same, false_and, if_false, add_zero]

/-- An UPDATE of one batch leaves the rows of every other. -/
theorem number_update_ne {other : BatchId} {update : Recipient → Bool}
    {set : Recipient → Recipient} (apart : other ≠ id) :
    number (rows.adjust fun key row => if key.1 = id ∧ update row = true then set row else row)
      other test = number rows other test := by
  simp only [number, Dict.total_adjust]
  congr 1
  funext key row
  by_cases same : key.1 = id
  · have elsewhere : key.1 ≠ other := fun both => apart (both.symm.trans same)
    simp only [elsewhere, false_and, if_false]
  · simp only [same, false_and, if_false]

end Numbers

/-! ## The invariant -/

/-- The counters of a batch against its rows, `slack` recipients before they are
inserted and `owed` rows used up before they are counted. -/
structure Reconciled (rows : Rows) (id : BatchId) (batch : Batch) (slack owed : Int) : Prop where
  total : batch.total = batch.pending + batch.started + batch.sent + batch.failed +
    batch.skipped + batch.unknownDelivery
  pending : batch.pending = number rows id (inState .pending) + slack
  started : batch.started = number rows id (inState .started)
  sent : batch.sent = number rows id (inState .sent)
  failed : batch.failed = number rows id (inState .failed)
  unknownDelivery : batch.unknownDelivery = number rows id (inState .unknownDelivery)
  retryableFailed : batch.retryableFailed = number rows id stillRetryable + owed
  skipped : 0 ≤ batch.skipped
  bounded : batch.total ≤ 100
  unclaimed : batch.state = .draft ∨ batch.state = .queued → batch.started = 0
  closed : batch.state = .finished → batch.pending = 0 ∧ batch.started = 0

theorem Reconciled.checks {rows : Rows} {id : BatchId} {batch : Batch} {slack owed : Int}
    (reconciled : Reconciled rows id batch slack owed) (short : 0 ≤ slack) (due : 0 ≤ owed) :
    batch.checks = true := by
  have pending := number_nonneg rows id (inState .pending)
  have started := number_nonneg rows id (inState .started)
  have sent := number_nonneg rows id (inState .sent)
  have failed := number_nonneg rows id (inState .failed)
  have unknown := number_nonneg rows id (inState .unknownDelivery)
  have retryable := number_nonneg rows id stillRetryable
  have skipped := reconciled.skipped
  have total := reconciled.total
  have bounded := reconciled.bounded
  rw [← reconciled.started] at started
  rw [← reconciled.sent] at sent
  rw [← reconciled.failed] at failed
  rw [← reconciled.unknownDelivery] at unknown
  have waiting := reconciled.pending
  have left := reconciled.retryableFailed
  apply decide_eq_true
  refine ⟨?_, bounded, ?_, started, sent, failed, skipped, unknown, ?_⟩ <;> omega

/-- The answer of the queue moves a draft on and touches no counter. -/
theorem Reconciled.admission {rows : Rows} {id : BatchId} {batch : Batch}
    {slack owed : Int} (reconciled : Reconciled rows id batch slack owed) (admission : Admission) :
    Reconciled rows id
      { batch with
        admissionState := admission.state
        admissionReason := Admission.reason admission
        storageMode := admission.storageMode
        taskId := batch.taskId <|> admission.taskId
        state :=
          if batch.state = .draft ∧ admission.taskId.isSome then .queued else batch.state }
      slack owed := by
  refine { reconciled with unclaimed := ?_, closed := ?_ }
  · intro early
    split at early
    · rename_i queued
      exact reconciled.unclaimed (.inl queued.1)
    · exact reconciled.unclaimed early
  · intro finished
    split at finished
    · cases finished
    · exact reconciled.closed finished

/-- The numbers of a batch that its counters follow are the same. -/
structure Unmoved (rows next : Rows) (id : BatchId) : Prop where
  states : ∀ state, number next id (inState state) = number rows id (inState state)
  retryable : number next id stillRetryable = number rows id stillRetryable

theorem Unmoved.of_forall {rows next : Rows} {id : BatchId}
    (same : ∀ test, number next id test = number rows id test) : Unmoved rows next id :=
  ⟨fun state => same (inState state), same stillRetryable⟩

/-- A batch whose numbers did not move. -/
theorem Reconciled.congr {rows next : Rows} {id : BatchId} {batch : Batch} {slack owed : Int}
    (reconciled : Reconciled rows id batch slack owed) (unmoved : Unmoved rows next id) :
    Reconciled next id batch slack owed := by
  constructor
  case total => exact reconciled.total
  case pending => rw [unmoved.states, reconciled.pending]
  case started => rw [unmoved.states, reconciled.started]
  case sent => rw [unmoved.states, reconciled.sent]
  case failed => rw [unmoved.states, reconciled.failed]
  case unknownDelivery => rw [unmoved.states, reconciled.unknownDelivery]
  case retryableFailed => rw [unmoved.retryable, reconciled.retryableFailed]
  case skipped => exact reconciled.skipped
  case bounded => exact reconciled.bounded
  case unclaimed => exact reconciled.unclaimed
  case closed => exact reconciled.closed

/-- What holds of a batch and its recipient rows. -/
structure Counted (rows : Rows) (id : BatchId) (batch : Batch) : Prop where
  total : batch.total = batch.pending + batch.started + batch.sent + batch.failed +
    batch.skipped + batch.unknownDelivery
  pending : batch.pending = number rows id (inState .pending)
  started : batch.started = number rows id (inState .started)
  sent : batch.sent = number rows id (inState .sent)
  failed : batch.failed = number rows id (inState .failed)
  unknownDelivery : batch.unknownDelivery = number rows id (inState .unknownDelivery)
  retryableFailed : batch.retryableFailed = number rows id stillRetryable
  closed : batch.state = .finished → ∀ recipient row, rows.get? (id, recipient) = some row →
    row.state ≠ .pending ∧ row.state ≠ .started

theorem Reconciled.counted {rows : Rows} {id : BatchId} {batch : Batch}
    (reconciled : Reconciled rows id batch 0 0) : Counted rows id batch := by
  obtain ⟨total, pending, started, sent, failed, unknown, retryable, _, _, _, closed⟩ :=
    reconciled
  rw [add_zero] at pending retryable
  refine ⟨total, pending, started, sent, failed, unknown, retryable, ?_⟩
  intro finished recipient row found
  obtain ⟨none, idle⟩ := closed finished
  constructor
  · intro waiting
    have one : 0 < number rows id (inState .pending) := number_pos found (beq_iff_eq.mpr waiting)
    omega
  · intro going
    have one : 0 < number rows id (inState .started) := number_pos found (beq_iff_eq.mpr going)
    omega

namespace Journal

/-- Every batch is reconciled, one of them up to the two differences, and every
row meets its own check and belongs to a batch. -/
structure Balanced (journal : Journal) (id : BatchId) (slack owed : Int) : Prop where
  placed : ∀ key row, journal.recipients.get? key = some row →
    reasonChecks row.reasonCode = true ∧ ∃ batch, journal.batches.get? key.1 = some batch
  focus : ∀ batch, journal.batches.get? id = some batch →
    Reconciled journal.recipients id batch slack owed
  rest : ∀ other batch, other ≠ id → journal.batches.get? other = some batch →
    Reconciled journal.recipients other batch 0 0

structure Sound (journal : Journal) : Prop where
  placed : ∀ key row, journal.recipients.get? key = some row →
    reasonChecks row.reasonCode = true ∧ ∃ batch, journal.batches.get? key.1 = some batch
  reconciled : ∀ id batch, journal.batches.get? id = some batch →
    Reconciled journal.recipients id batch 0 0

variable {journal : Journal} {id : BatchId} {slack owed : Int}

theorem Sound.balanced (sound : Sound journal) (id : BatchId) : Balanced journal id 0 0 :=
  ⟨sound.placed, sound.reconciled id, fun other batch _ => sound.reconciled other batch⟩

theorem Balanced.sound (balanced : Balanced journal id 0 0) : Sound journal where
  placed := balanced.placed
  reconciled other batch found := by
    by_cases same : other = id
    · subst same
      exact balanced.focus batch found
    · exact balanced.rest other batch same found

/-- The batch in focus and its rows change; the other batches keep theirs. -/
theorem Balanced.change {batch : Batch} {rows : Rows} {attempts : Dict AttemptId Attempt}
    {further due : Int} (balanced : Balanced journal id slack owed)
    (placed : ∀ key row, rows.get? key = some row → reasonChecks row.reasonCode = true ∧
      (key.1 = id ∨ ∃ before, journal.recipients.get? key = some before))
    (others : ∀ other, other ≠ id → Unmoved journal.recipients rows other)
    (reconciled : Reconciled rows id batch further due) :
    Balanced ⟨journal.batches.set id batch, rows, attempts⟩ id further due where
  placed key row found := by
    obtain ⟨checks, known⟩ := placed key row found
    refine ⟨checks, ?_⟩
    rw [Dict.get?_set]
    split
    · exact ⟨batch, rfl⟩
    · rename_i apart
      obtain same | ⟨before, was⟩ := known
      · exact absurd same apart
      · exact (balanced.placed key before was).2
  focus other found := by
    rw [Dict.get?_set, if_pos rfl] at found
    cases found
    exact reconciled
  rest other batch apart found := by
    rw [Dict.get?_set_ne _ _ apart] at found
    exact (balanced.rest other batch apart found).congr (others other apart)

/-- Only the rows of the batch in focus change. -/
theorem Balanced.changeRows {rows : Rows} {attempts : Dict AttemptId Attempt}
    {further due : Int} (balanced : Balanced journal id slack owed)
    (placed : ∀ key row, rows.get? key = some row → reasonChecks row.reasonCode = true ∧
      ∃ before, journal.recipients.get? key = some before)
    (others : ∀ other, other ≠ id → Unmoved journal.recipients rows other)
    (reconciled : ∀ batch, journal.batches.get? id = some batch →
      Reconciled rows id batch further due) :
    Balanced ⟨journal.batches, rows, attempts⟩ id further due where
  placed key row found := by
    obtain ⟨checks, before, was⟩ := placed key row found
    exact ⟨checks, (balanced.placed key before was).2⟩
  focus := reconciled
  rest other batch apart found :=
    (balanced.rest other batch apart found).congr (others other apart)

/-! ## Statements -/

theorem updateBatch_ends {post : Journal × Option Batch → Prop} {test : Batch → Bool}
    {set : Batch → Batch}
    (updates : ∀ batch, journal.batches.get? id = some batch → test batch = true →
      (set batch).checks = true ∧
        post ({ journal with batches := journal.batches.set id (set batch) }, some (set batch)))
    (stays : (∀ batch, journal.batches.get? id = some batch → test batch = false) →
      post (journal, none)) :
    Ends (· ≠ .check) post (journal.updateBatch id test set) := by
  unfold updateBatch
  split
  · rename_i missing
    apply stays
    intro batch found
    cases missing.symm.trans found
  · rename_i batch found
    split
    · rename_i passes
      obtain ⟨checks, result⟩ := updates batch found passes
      rw [if_pos checks]
      split
      · exact Violation.noConfusion
      · exact result
    · rename_i fails
      apply stays
      intro other same
      cases found.symm.trans same
      exact Bool.eq_false_of_not_eq_true fails

theorem updateRecipient_ends {post : Journal × Bool → Prop} {key : BatchId × RecipientId}
    {test : Recipient → Bool} {set : Recipient → Recipient}
    (updates : ∀ row, journal.recipients.get? key = some row → test row = true →
      reasonChecks (set row).reasonCode = true ∧
        post ({ journal with recipients := journal.recipients.set key (set row) }, true))
    (stays : post (journal, false)) :
    Ends (· ≠ .check) post (journal.updateRecipient key test set) := by
  unfold updateRecipient
  split
  · exact stays
  · rename_i row found
    split
    · rename_i passes
      obtain ⟨checks, result⟩ := updates row found passes
      rw [if_pos checks]
      exact result
    · exact stays

theorem updateRecipients_ends {post : Journal → Prop} {test : Recipient → Bool}
    {set : Recipient → Recipient} (checks : ∀ row, reasonChecks (set row).reasonCode = true)
    (updated : post { journal with
      recipients := journal.recipients.adjust fun key row =>
        if key.1 = id ∧ test row = true then set row else row }) :
    Ends (· ≠ .check) post (journal.updateRecipients id test set) := by
  unfold updateRecipients
  rw [if_pos]
  · exact updated
  · apply List.all_eq_true.mpr
    intro item _
    rw [checks, Bool.or_true]

/-! ## The transactions of a batch -/

/-- An update of a batch that keeps its rows. -/
theorem Balanced.updateBatch (balanced : Balanced journal id slack owed) {test : Batch → Bool}
    {set : Batch → Batch} {further due : Int} (short : 0 ≤ further) (debt : 0 ≤ due)
    (updates : ∀ batch, test batch = true → Reconciled journal.recipients id batch slack owed →
      Reconciled journal.recipients id (set batch) further due)
    (stays : (∀ batch, journal.batches.get? id = some batch → test batch = false) →
      Balanced journal id further due) :
    Ends (· ≠ .check) (fun result => Balanced result.1 id further due ∧
      ((∃ batch, journal.batches.get? id = some batch) →
        ∃ batch, result.1.batches.get? id = some batch))
      (journal.updateBatch id test set) := by
  apply updateBatch_ends
  · intro batch found passes
    have reconciled := updates batch passes (balanced.focus batch found)
    refine ⟨reconciled.checks short debt, ?_, ?_⟩
    · apply balanced.change _ (fun _ _ => .of_forall fun _ => rfl) reconciled
      intro key row present
      exact ⟨(balanced.placed key row present).1, .inr ⟨row, present⟩⟩
    · exact fun _ => ⟨_, (Dict.get?_set _ _ _ _).trans (if_pos rfl)⟩
  · exact fun none => ⟨stays none, fun known => known⟩

theorem Sound.updateBatch (sound : Sound journal) {test : Batch → Bool} {set : Batch → Batch}
    (updates : ∀ batch, test batch = true → Reconciled journal.recipients id batch 0 0 →
      Reconciled journal.recipients id (set batch) 0 0) :
    Ends (· ≠ .check) (fun result => Sound result.1) (journal.updateBatch id test set) := by
  have balanced := sound.balanced id
  exact (balanced.updateBatch (le_refl _) (le_refl _) updates fun _ => balanced).mono
    fun _ result => result.1.sound

theorem claimBatch_ends (sound : Sound journal) (task : String) (token : Token)
    (settingsRevision : Option Int) :
    Ends (· ≠ .check) (fun result => Sound result.1)
      (journal.claimBatch id task token settingsRevision) := by
  unfold claimBatch
  apply Ends.bind (sound.updateBatch _)
  · rintro ⟨claimed, row⟩ held
    dsimp only
    split
    · apply Ends.bind (Sound.updateBatch held _)
      · rintro ⟨named, _⟩ final
        exact final
      · intro batch _ reconciled
        exact { reconciled with }
    · exact held
  · intro batch _ reconciled
    refine { reconciled with unclaimed := ?_, closed := ?_ }
    · rintro (draft | queued)
      · cases draft
      · cases queued
    · intro finished
      cases finished

theorem finishBatch_ends (sound : Sound journal) (token : Token) :
    Ends (· ≠ .check) (fun result => Sound result.1) (journal.finishBatch id token) := by
  unfold finishBatch
  apply Ends.bind (sound.updateBatch _)
  · rintro ⟨finished, row⟩ held
    exact held
  · intro batch passes reconciled
    simp only [Bool.and_eq_true, beq_iff_eq] at passes
    refine { reconciled with unclaimed := ?_, closed := ?_ }
    · rintro (draft | queued)
      · cases draft
      · cases queued
    · exact fun _ => ⟨passes.1.2, passes.2⟩

/-! ## The transactions of a recipient -/

/-- A row and the counters of its batch move together. -/
theorem Sound.moveRecipient (sound : Sound journal) {recipient : RecipientId} {row : Recipient}
    (found : journal.recipients.get? (id, recipient) = some row) (new : Recipient)
    (checks : reasonChecks new.reasonCode = true) {set : Batch → Batch}
    (updates : ∀ batch, journal.batches.get? id = some batch →
      Reconciled journal.recipients id batch 0 0 →
      Reconciled (journal.recipients.set (id, recipient) new) id (set batch) 0 0) :
    Ends (· ≠ .check) (fun result => Sound result.1)
      (Journal.updateBatch
        { journal with recipients := journal.recipients.set (id, recipient) new }
        id (fun _ => true) set) := by
  apply updateBatch_ends
  · intro batch present _
    have reconciled := updates batch present (sound.reconciled id batch present)
    refine ⟨reconciled.checks (le_refl _) (le_refl _), ?_⟩
    refine Balanced.sound ((sound.balanced id).change ?_ ?_ reconciled)
    · intro key other held
      rw [Dict.get?_set] at held
      split at held
      · rename_i same
        cases held
        exact ⟨checks, .inl (congrArg Prod.fst same)⟩
      · exact ⟨(sound.placed key other held).1, .inr ⟨other, held⟩⟩
    · exact fun other apart => .of_forall (number_set_ne found new apart)
  · intro none
    obtain ⟨_, batch, present⟩ := sound.placed _ _ found
    cases none batch present

/-- A transaction that updates a row and, if there was one, its batch. -/
theorem Sound.updateBoth (sound : Sound journal) {recipient : RecipientId}
    {test : Recipient → Bool} {setRow : Recipient → Recipient} {set : Batch → Batch}
    (checks : ∀ row, journal.recipients.get? (id, recipient) = some row →
      reasonChecks (setRow row).reasonCode = true)
    (updates : ∀ row batch, journal.recipients.get? (id, recipient) = some row →
      test row = true → journal.batches.get? id = some batch →
      Reconciled journal.recipients id batch 0 0 →
      Reconciled (journal.recipients.set (id, recipient) (setRow row)) id (set batch) 0 0) :
    Ends (· ≠ .check) (fun result => Sound result.1) (do
      let (journal, row) ← journal.updateRecipient (id, recipient) test setRow
      if row then
        let (journal, _) ← journal.updateBatch id (fun _ => true) set
        return (journal, true)
      else return (journal, false)) := by
  have first : Ends (· ≠ .check) (fun result : Journal × Bool =>
      if result.2 then
        Ends (· ≠ .check) (fun final => Sound final.1)
          (result.1.updateBatch id (fun _ => true) set)
      else Sound result.1) (journal.updateRecipient (id, recipient) test setRow) := by
    apply updateRecipient_ends
    · intro row found passes
      refine ⟨checks row found, ?_⟩
      apply sound.moveRecipient found _ (checks row found)
      intro batch present reconciled
      exact updates row batch found passes present reconciled
    · exact sound
  apply first.bind
  rintro ⟨next, row⟩ held
  cases row with
  | false => exact held
  | true =>
    apply Ends.bind held
    rintro ⟨final, _⟩ result
    exact result

theorem claimRecipient_ends (sound : Sound journal) (recipient : RecipientId)
    (batchToken token : Token) :
    Ends (· ≠ .check) (fun result => Sound result.1)
      (journal.claimRecipient id recipient batchToken token) := by
  apply sound.updateBoth
  · intro row found
    exact (sound.placed _ row found).1
  · intro row batch found passes present reconciled
    simp only [Bool.and_eq_true, Option.any_eq_true, beq_iff_eq] at passes
    obtain ⟨⟨owner, owned, _, running⟩, pending⟩ := passes
    cases owned.symm.trans present
    have moved := number_move found { row with state := .started, ownerToken := some token }
    obtain ⟨total, waiting, started, sent, failed, unknown, retryable, skipped, bounded, _, _⟩ :=
      reconciled
    constructor
    case unclaimed =>
      rintro (draft | queued)
      · cases running.symm.trans draft
      · cases running.symm.trans queued
    case closed =>
      intro finished
      cases running.symm.trans finished
    all_goals
      simp [moved, inState, stillRetryable, pending] at *
      try omega

theorem finishRecipient_ends (sound : Sound journal) (recipient : RecipientId) (token : Token)
    {result : DeliveryResult} (promised : reasonMatches result.reasonCode = true) :
    Ends (· ≠ .check) (fun result => Sound result.1)
      (journal.finishRecipient id recipient token result) := by
  unfold finishRecipient
  cases known : Disposition.ofOutcome result.outcome with
  | none => exact Violation.noConfusion
  | some outcome =>
    have settled : outcome ≠ .pending ∧ outcome ≠ .started := by
      unfold Disposition.ofOutcome at known
      split at known <;> cases known <;> decide
    apply sound.updateBoth
    · intro row _
      exact promised
    · intro row batch found passes present reconciled
      simp only [Bool.and_eq_true, beq_iff_eq] at passes
      have moved := number_move found
        { row with
          state := outcome, reasonCode := some result.reasonCode
          retryable := result.retryable, messageId := result.messageId, ownerToken := none }
      have one : 0 < number journal.recipients id (inState .started) :=
        number_pos found (beq_iff_eq.mpr passes.2)
      obtain ⟨total, waiting, started, sent, failed, unknown, retryable, skipped, bounded,
        unclaimed, closed⟩ := reconciled
      have running : batch.state = .running := by
        cases state : batch.state with
        | draft =>
          have none := unclaimed (.inl state)
          omega
        | queued =>
          have none := unclaimed (.inr state)
          omega
        | running => rfl
        | finished =>
          have none := closed state
          omega
      cases outcome with
      | pending => exact absurd rfl settled.1
      | started => exact absurd rfl settled.2
      | _ =>
        constructor
        all_goals
          simp [moved, inState, stillRetryable, passes.2, Batch.credit, running] at *
          try omega

/-! ## Attempts -/

theorem Sound.attempts (sound : Sound journal) (attempts : Dict AttemptId Attempt) :
    Sound { journal with attempts } :=
  ⟨sound.placed, sound.reconciled⟩

theorem startAttempt_ends (sound : Sound journal) (attempt : AttemptId)
    (recipient : RecipientId) (token : Token) {sequence : Int} (promised : 0 < sequence) :
    Ends (· ≠ .check) (fun result => Sound result.1)
      (journal.startAttempt attempt id recipient token sequence) := by
  unfold startAttempt
  split
  · rw [if_neg (not_le.mpr promised)]
    split_ifs
    · exact Violation.noConfusion
    · exact sound.attempts _
    · exact sound
  · exact sound

theorem finishAttempt_ends (sound : Sound journal) (attempt : AttemptId) (token : Token)
    {result : DeliveryResult} (outcome : (Disposition.ofOutcome result.outcome).isSome = true)
    (reason : reasonMatches result.reasonCode = true) :
    Ends (· ≠ .check) (fun result => Sound result.1)
      (journal.finishAttempt attempt token result) := by
  unfold finishAttempt
  split
  · exact sound
  · dsimp only
    split
    · split
      · rename_i unknown
        split at unknown
        · cases unknown
        · rw [unknown] at outcome
          cases outcome
      · exact sound.attempts _
    · exact sound

/-! ## The transactions of a whole batch -/

/-- A transaction that updates rows of a batch and then the batch. -/
theorem Sound.updateAll (sound : Sound journal) {test : Recipient → Bool}
    {setRow : Recipient → Recipient} {testBatch : Batch → Bool} {set : Batch → Batch}
    (checks : ∀ row, reasonChecks (setRow row).reasonCode = true)
    (updates : ∀ batch, journal.batches.get? id = some batch → testBatch batch = true →
      Reconciled journal.recipients id batch 0 0 →
      Reconciled (journal.recipients.adjust fun key row =>
        if key.1 = id ∧ test row = true then setRow row else row) id (set batch) 0 0)
    (stays : ∀ batch, journal.batches.get? id = some batch → testBatch batch = false →
      Reconciled journal.recipients id batch 0 0 →
      Reconciled (journal.recipients.adjust fun key row =>
        if key.1 = id ∧ test row = true then setRow row else row) id batch 0 0) :
    Ends (· ≠ .check) Sound (do
      let journal ← journal.updateRecipients id test setRow
      let (journal, _) ← journal.updateBatch id testBatch set
      return journal) := by
  have placed : ∀ key row, (journal.recipients.adjust fun key row =>
      if key.1 = id ∧ test row = true then setRow row else row).get? key = some row →
      reasonChecks row.reasonCode = true ∧
        ∃ before, journal.recipients.get? key = some before := by
    intro key row present
    rw [Dict.get?_adjust] at present
    obtain ⟨before, was, rfl⟩ := Option.map_eq_some_iff.mp present
    refine ⟨?_, before, was⟩
    split
    · exact checks before
    · exact (sound.placed key before was).1
  have rows : Ends (· ≠ .check) (fun next : Journal => Ends (· ≠ .check)
      (fun result => Sound result.1) (next.updateBatch id testBatch set))
      (journal.updateRecipients id test setRow) := by
    apply updateRecipients_ends checks
    apply updateBatch_ends
    · intro batch found passes
      have reconciled := updates batch found passes (sound.reconciled id batch found)
      refine ⟨reconciled.checks (le_refl _) (le_refl _), ?_⟩
      refine Balanced.sound ((sound.balanced id).change ?_ ?_ reconciled)
      · intro key row present
        obtain ⟨valid, before⟩ := placed key row present
        exact ⟨valid, .inr before⟩
      · intro other apart
        exact .of_forall fun _ => number_update_ne apart
    · intro fails
      refine Balanced.sound ((sound.balanced id).changeRows placed ?_ ?_)
      · intro other apart
        exact .of_forall fun _ => number_update_ne apart
      · intro batch found
        exact stays batch found (fails batch found) (sound.reconciled id batch found)
  apply rows.bind
  intro next held
  apply Ends.bind held
  rintro ⟨final, _⟩ result
  exact result

/-- The rows after a rejected admission. -/
theorem number_rejected (rows : Rows) (id : BatchId) :
    let after := rows.adjust fun key row =>
      if key.1 = id ∧ (row.state == .pending) = true then row.reject else row
    number after id (inState .pending) = 0 ∧
      number after id (inState .started) = number rows id (inState .started) ∧
      number after id (inState .sent) = number rows id (inState .sent) ∧
      number after id (inState .failed) =
        number rows id (inState .failed) + number rows id (inState .pending) ∧
      number after id (inState .unknownDelivery) = number rows id (inState .unknownDelivery) ∧
      number after id stillRetryable =
        number rows id stillRetryable + number rows id (inState .pending) := by
  intro after
  have parts : ∀ test first second : Recipient → Bool, (∀ row : Recipient,
        (if test (if (row.state == .pending) = true then row.reject else row) = true then (1 : Int)
          else 0) =
          (if first row = true then 1 else 0) + if second row = true then 1 else 0) →
      number after id test = number rows id first + number rows id second :=
    fun _ _ _ splits => number_update splits
  have part : ∀ test first : Recipient → Bool, (∀ row : Recipient,
        (if test (if (row.state == .pending) = true then row.reject else row) = true then (1 : Int)
          else 0) = if first row = true then 1 else 0) → number after id test = number rows id first := by
    intro test first same
    rw [parts test first (fun _ => false) (by simpa using same), number_none, add_zero]
  have none := number_none rows id
  refine ⟨(part _ _ ?_).trans none, part _ _ ?_, part _ _ ?_, parts _ _ _ ?_, part _ _ ?_,
    parts _ _ _ ?_⟩
  all_goals
    intro row
    cases state : row.state <;> simp [inState, stillRetryable, Recipient.reject, state]

/-- The rows after an interruption. -/
theorem number_interrupted (rows : Rows) (id : BatchId) :
    let after := rows.adjust fun key row =>
      if key.1 = id ∧ (row.state == .pending || row.state == .started) = true then row.interrupt
      else row
    number after id (inState .pending) = 0 ∧ number after id (inState .started) = 0 ∧
      number after id (inState .sent) = number rows id (inState .sent) ∧
      number after id (inState .failed) = number rows id (inState .failed) ∧
      number after id (inState .unknownDelivery) =
        number rows id (inState .unknownDelivery) + number rows id (inState .started) ∧
      number after id stillRetryable = number rows id stillRetryable := by
  intro after
  have parts : ∀ test first second : Recipient → Bool, (∀ row : Recipient,
        (if test (if (row.state == .pending || row.state == .started) = true then row.interrupt
          else row) = true then (1 : Int) else 0) =
          (if first row = true then 1 else 0) + if second row = true then 1 else 0) →
      number after id test = number rows id first + number rows id second :=
    fun _ _ _ splits => number_update splits
  have part : ∀ test first : Recipient → Bool, (∀ row : Recipient,
        (if test (if (row.state == .pending || row.state == .started) = true then row.interrupt
          else row) = true then (1 : Int) else 0) = if first row = true then 1 else 0) → number after id test = number rows id first := by
    intro test first same
    rw [parts test first (fun _ => false) (by simpa using same), number_none, add_zero]
  have none := number_none rows id
  refine ⟨(part _ _ ?_).trans none, (part _ _ ?_).trans none, part _ _ ?_, part _ _ ?_,
    parts _ _ _ ?_, part _ _ ?_⟩
  all_goals
    intro row
    cases state : row.state <;> simp [inState, stillRetryable, Recipient.interrupt, state]

/-- A batch that the queue refuses fails with all its rows; a finished one has none left. -/
theorem Sound.reject (sound : Sound journal)
    (idle : ∀ batch ∈ journal.batches.get? id, batch.state ≠ .running) :
    Ends (· ≠ .check) Sound (do
      let journal ← journal.updateRecipients id (fun row => row.state == .pending) Recipient.reject
      let (journal, _) ← journal.updateBatch id
        (fun batch => batch.state == .draft || batch.state == .queued) fun batch =>
          { batch with
            failed := batch.failed + batch.pending
            retryableFailed := batch.retryableFailed + batch.pending
            pending := 0, state := .finished }
      return journal) := by
  obtain ⟨pending, started, sent, failed, unknown, retryable⟩ :=
    number_rejected journal.recipients id
  apply sound.updateAll
  · intro row
    show reasonChecks (some "queue_admission_rejected") = true
    decide
  · intro batch found passes reconciled
    obtain ⟨total, waiting, going, done, lost, open_, again, skipped, bounded, unclaimed, _⟩ :=
      reconciled
    have early : batch.started = 0 := by
      apply unclaimed
      simpa only [Bool.or_eq_true, beq_iff_eq] using passes
    constructor
    case unclaimed => exact fun _ => early
    case closed => exact fun _ => ⟨rfl, early⟩
    all_goals
      dsimp only at *
      omega
  · intro batch found fails reconciled
    obtain ⟨total, waiting, going, done, lost, open_, again, skipped, bounded, unclaimed,
      closed⟩ := reconciled
    have finished : batch.state = .finished := by
      have settled := idle batch found
      cases state : batch.state with
      | draft | queued => simp [state] at fails
      | running => exact absurd state settled
      | finished => rfl
    have none := closed finished
    constructor
    case unclaimed => exact unclaimed
    case closed => exact closed
    all_goals omega

theorem recordAdmission_ends (sound : Sound journal) {admission : Admission}
    (promised : admission.state = .rejected →
      ∀ batch ∈ journal.batches.get? id, batch.state ≠ .running) :
    Ends (· ≠ .check) Sound (journal.recordAdmission id admission) := by
  unfold recordAdmission
  have recorded : Ends (· ≠ .check) (fun result : Journal × Option Batch => Sound result.1 ∧
      (admission.state = .rejected → ∀ batch ∈ result.1.batches.get? id, batch.state ≠ .running))
      (journal.updateBatch id (fun _ => true) fun batch =>
        { batch with
          admissionState := admission.state
          admissionReason := Admission.reason admission
          storageMode := admission.storageMode
          taskId := batch.taskId <|> admission.taskId
          state :=
            if batch.state = .draft ∧ admission.taskId.isSome then .queued else batch.state }) := by
    apply updateBatch_ends
    · intro batch found _
      have restated := (sound.reconciled id batch found).admission admission
      refine ⟨restated.checks (le_refl _) (le_refl _), ?_, ?_⟩
      · refine Balanced.sound
          ((sound.balanced id).change ?_ (fun _ _ => .of_forall fun _ => rfl) restated)
        intro key row present
        exact ⟨(sound.placed key row present).1, .inr ⟨row, present⟩⟩
      · intro rejected other present
        rw [Option.mem_def, Dict.get?_set, if_pos rfl] at present
        cases present
        have idle := promised rejected batch found
        dsimp only
        split
        · exact BatchState.noConfusion
        · exact idle
    · exact fun _ => ⟨sound, promised⟩
  apply recorded.bind
  rintro ⟨next, _⟩ ⟨held, idle⟩
  dsimp only
  split
  · rename_i rejected
    exact held.reject (idle rejected)
  · exact held

theorem interruptBatch_ends (sound : Sound journal) :
    Ends (· ≠ .check) Sound (journal.interruptBatch id) := by
  unfold interruptBatch interruptAttempts
  rw [if_pos (by decide)]
  have idle := sound.attempts (journal.attempts.adjust fun _ attempt =>
    if attempt.batchId = id ∧ attempt.outcome = .started then
      { attempt with outcome := .unknownDelivery, reasonCode := some "worker_interrupted" }
    else attempt)
  apply idle.updateAll
  · intro row
    simp only [Recipient.interrupt]
    split <;> decide
  · intro batch found passes reconciled
    obtain ⟨pending, started, sent, failed, unknown, retryable⟩ :=
      number_interrupted journal.recipients id
    obtain ⟨total, waiting, going, done, lost, open_, again, skipped, bounded, _, _⟩ :=
      reconciled
    have rest := number_nonneg journal.recipients id (inState .pending)
    constructor
    case unclaimed => exact fun _ => rfl
    case closed => exact fun _ => ⟨rfl, rfl⟩
    all_goals
      dsimp only at *
      omega
  · intro batch found fails reconciled
    obtain ⟨pending, started, sent, failed, unknown, retryable⟩ :=
      number_interrupted journal.recipients id
    obtain ⟨total, waiting, going, done, lost, open_, again, skipped, bounded, unclaimed,
      closed⟩ := reconciled
    have finished : batch.state = .finished := by simpa using fails
    have none := closed finished
    constructor
    case unclaimed => exact unclaimed
    case closed => exact closed
    all_goals
      dsimp only at *
      omega

/-! ## Creating a batch -/

/-- The rows of the parent that are used up are owed to its counter. -/
theorem Balanced.consume {parent : BatchId} (recipients : List Snapshot)
    (balanced : Balanced journal parent 0 owed) :
    let (after, consumed, marked) := Journal.consume parent journal recipients
    Balanced after parent 0 (owed + consumed) ∧ 0 ≤ consumed ∧
      marked.length = recipients.length := by
  induction recipients generalizing journal owed with
  | nil =>
    refine ⟨?_, le_refl _, rfl⟩
    rw [add_zero]
    exact balanced
  | cons recipient rest ih =>
    simp only [Journal.consume]
    split
    · rename_i row used
      obtain ⟨found, passes⟩ := Option.filter_eq_some_iff.mp used
      simp only [Bool.and_eq_true, beq_iff_eq] at passes
      have kept : ∀ state, number (journal.recipients.set (parent, recipient.recipientId)
          { row with retryable := false }) parent (inState state) =
            number journal.recipients parent (inState state) := by
        intro state
        rw [number_move found]
        exact Int.sub_add_cancel _ _
      have used : number (journal.recipients.set (parent, recipient.recipientId)
          { row with retryable := false }) parent stillRetryable =
            number journal.recipients parent stillRetryable - 1 := by
        rw [number_move found]
        simp [stillRetryable, passes]
      have next : Balanced { journal with
          recipients := journal.recipients.set (parent, recipient.recipientId)
            { row with retryable := false } } parent 0 (owed + 1) := by
        refine balanced.changeRows ?_ ?_ ?_
        · intro key other present
          rw [Dict.get?_set] at present
          split at present
          · rename_i same
            cases present
            exact ⟨(balanced.placed _ row found).1, row, same ▸ found⟩
          · exact ⟨(balanced.placed key other present).1, other, present⟩
        · exact fun other apart => .of_forall (number_set_ne found _ apart)
        · intro batch present
          obtain ⟨total, waiting, going, done, lost, open_, again, skipped, bounded, unclaimed,
            closed⟩ := balanced.focus batch present
          constructor
          case total => exact total
          case skipped => exact skipped
          case bounded => exact bounded
          case unclaimed => exact unclaimed
          case closed => exact closed
          case retryableFailed =>
            rw [used]
            omega
          all_goals
            rw [kept]
            assumption
      obtain ⟨held, counted, marked⟩ := ih next
      refine ⟨?_, add_nonneg counted zero_le_one, by
        rw [List.length_cons, List.length_cons, marked]⟩
      rw [add_assoc, add_comm 1] at held
      exact held
    · obtain ⟨held, counted, marked⟩ := ih balanced
      exact ⟨held, counted, by rw [List.length_cons, List.length_cons, marked]⟩

theorem consumeParent_ends (sound : Sound journal) (args : NewBatch) :
    Ends (· ≠ .check)
      (fun result => Sound result.1 ∧ result.2.length = args.recipients.length)
      (journal.consumeParent args) := by
  unfold consumeParent
  split
  · exact ⟨sound, rfl⟩
  · rename_i parent _
    obtain ⟨balanced, counted, marked⟩ :=
      (sound.balanced parent).consume args.recipients
    rw [zero_add] at balanced
    refine Ends.bind (balanced.updateBatch (le_refl 0) (le_refl 0) ?_ ?_) ?_
    · intro batch _ reconciled
      refine { reconciled with retryableFailed := ?_ }
      have owed := reconciled.retryableFailed
      dsimp only
      omega
    · intro none
      refine { balanced with focus := ?_ }
      intro batch found
      cases none batch found
    · rintro ⟨next, _⟩ held
      exact ⟨held.1.sound, marked⟩

/-- A batch that is inserted counts its recipients before their rows are. -/
theorem insertBatch_ends (sound : Sound journal) (args : NewBatch) {recipients : List Snapshot}
    (few : recipients.length ≤ 100) :
    Ends (· ≠ .check) (fun next => Balanced next args.batchId
        ((recipients.filter fun recipient => recipient.reasonCode.isNone).length : Int) 0 ∧
        ∃ batch, next.batches.get? args.batchId = some batch)
      (journal.insertBatch args (NewBatch.row args recipients)) := by
  have eligible : (recipients.filter fun recipient => recipient.reasonCode.isNone).length ≤
      recipients.length := List.length_filter_le _ _
  have checks : (NewBatch.row args recipients).checks = true := by
    apply decide_eq_true
    simp only [NewBatch.row]
    omega
  unfold insertBatch
  rw [checks]
  simp only [Bool.not_true, Bool.false_eq_true, if_false]
  split_ifs with taken orphan
  · exact Violation.noConfusion
  · exact Violation.noConfusion
  · have absent : journal.batches.get? args.batchId = none := by
      simpa [Dict.contains] using taken
    have empty : ∀ test, number journal.recipients args.batchId test = 0 := by
      intro test
      apply number_empty
      intro key row found same
      obtain ⟨_, batch, present⟩ := sound.placed key row found
      rw [same, absent] at present
      cases present
    constructor
    · refine (sound.balanced args.batchId).change ?_ (fun _ _ => .of_forall fun _ => rfl) ?_
      · intro key row present
        exact ⟨(sound.placed key row present).1, .inr ⟨row, present⟩⟩
      · constructor
        case unclaimed => exact fun _ => rfl
        case closed => intro finished; cases finished
        case pending => rw [empty, zero_add]; rfl
        case retryableFailed => rw [empty]; rfl
        case total =>
          simp only [NewBatch.row]
          omega
        case skipped =>
          simp only [NewBatch.row]
          omega
        case bounded =>
          simp only [NewBatch.row]
          omega
        all_goals
          rw [empty]
          rfl
    · exact ⟨_, (Dict.get?_set _ _ _ _).trans (if_pos rfl)⟩

/-- Releasing a schedule key moves no counted row. -/
theorem releaseScheduleKey_ends (balanced : Balanced journal id slack owed) (args : NewBatch)
    (recipient : Snapshot) (key : Option String) :
    Ends (· ≠ .check)
      (fun result => Balanced result.1 id slack owed ∧ result.1.batches = journal.batches)
      (journal.releaseScheduleKey args recipient key) := by
  unfold releaseScheduleKey
  cases args.parentBatchId with
  | none => exact ⟨balanced, rfl⟩
  | some parent =>
    cases key with
    | none => exact ⟨balanced, rfl⟩
    | some text =>
      apply updateRecipient_ends
      · intro row found _
        have checks := (balanced.placed _ row found).1
        refine ⟨checks, ?_, rfl⟩
        have unmoved : ∀ other, Unmoved journal.recipients
            (journal.recipients.set (parent, recipient.recipientId)
              { row with scheduleKey := none }) other := by
          intro other
          constructor
          · intro state
            have moved := number_set found { row with scheduleKey := none } other (inState state)
            exact add_right_cancel moved
          · have moved := number_set found { row with scheduleKey := none } other stillRetryable
            exact add_right_cancel moved
        refine balanced.changeRows ?_ (fun other _ => unmoved other) ?_
        · intro other held present
          rw [Dict.get?_set] at present
          split at present
          · rename_i same
            cases present
            exact ⟨checks, row, same ▸ found⟩
          · exact ⟨(balanced.placed other held present).1, held, present⟩
        · intro batch present
          exact (balanced.focus batch present).congr (unmoved id)
      · exact ⟨balanced, rfl⟩

/-- A recipient that is not inserted moves from `pending` to `skipped`. -/
theorem skipRecipient_ends {waiting : Nat} (balanced : Balanced journal id (waiting + 1 : Nat) 0)
    (known : ∃ batch, journal.batches.get? id = some batch) :
    Ends (· ≠ .check) (fun next => Balanced next id waiting 0 ∧
        ∃ batch, next.batches.get? id = some batch) (do
      let (journal, _) ← journal.updateBatch id (fun _ => true) fun batch =>
        { batch with pending := batch.pending - 1, skipped := batch.skipped + 1 }
      return journal) := by
  refine Ends.bind (balanced.updateBatch (Int.natCast_nonneg waiting) (le_refl 0) ?_ ?_) ?_
  · intro batch _ reconciled
    refine { reconciled with total := ?_, pending := ?_, skipped := ?_, closed := ?_ }
    · have total := reconciled.total
      dsimp only
      omega
    · have pending := reconciled.pending
      dsimp only
      omega
    · have skipped := reconciled.skipped
      dsimp only
      omega
    · intro finished
      have pending := reconciled.pending
      have rest := number_nonneg journal.recipients id (inState .pending)
      have none := reconciled.closed finished
      omega
  · intro none
    obtain ⟨batch, found⟩ := known
    cases none batch found
  · rintro ⟨next, _⟩ held
    exact ⟨held.1, held.2 known⟩

theorem insertRecipient_ends (sha256 : String → String) (users : RecipientId → Bool)
    {args : NewBatch} {waiting : Nat} (recipient : Snapshot)
    (balanced : Balanced journal args.batchId (waiting + 1 : Nat) 0)
    (known : ∃ batch, journal.batches.get? args.batchId = some batch) :
    Ends (· ≠ .check) (fun next => Balanced next args.batchId waiting 0 ∧
        ∃ batch, next.batches.get? args.batchId = some batch)
      (insertRecipient sha256 users args journal recipient) := by
  unfold insertRecipient
  refine Ends.bind (releaseScheduleKey_ends balanced args recipient
    (scheduleKey sha256 args recipient)) ?_
  rintro ⟨freed, _⟩ ⟨held, same⟩
  dsimp only at held same
  have present : ∃ batch, freed.batches.get? args.batchId = some batch := by
    rw [same]
    exact known
  dsimp only
  split
  · split
    · exact Violation.noConfusion
    · split
      · exact skipRecipient_ends held present
      · rename_i epoch _ free
        have missing : freed.recipients.get? (args.batchId, recipient.recipientId) = none := by
          simp only [conflicts, Bool.not_eq_true, Bool.or_eq_false_iff] at free
          exact Option.not_isSome_iff_eq_none.mp (Bool.eq_false_iff.mp free.1)
        refine ⟨⟨?_, ?_, ?_⟩, present⟩
        · intro key row listed
          rw [Dict.get?_set] at listed
          split at listed
          · rename_i same
            cases listed
            cases same
            exact ⟨rfl, present⟩
          · exact held.placed key row listed
        · intro batch found
          obtain ⟨total, pending, going, done, lost, open_, again, skipped, bounded, unclaimed,
            closed⟩ := held.focus batch found
          have grown := fun test => number_insert missing
            { channel := args.channel, privacyEpoch := epoch
              scheduleKey := scheduleKey sha256 args recipient, slotDate := recipient.slotDate
              state := .pending, ownerToken := none, reasonCode := none, retryable := false
              messageId := none } args.batchId test
          constructor
          case total => exact total
          case skipped => exact skipped
          case bounded => exact bounded
          case unclaimed => exact unclaimed
          case closed => exact closed
          case pending =>
            rw [grown]
            simp [inState]
            omega
          case started => simpa [grown, inState] using going
          case sent => simpa [grown, inState] using done
          case failed => simpa [grown, inState] using lost
          case unknownDelivery => simpa [grown, inState] using open_
          case retryableFailed => simpa [grown, stillRetryable] using again
        · intro other batch apart found
          apply (held.rest other batch apart found).congr
          apply Unmoved.of_forall
          intro test
          have elsewhere : ¬ args.batchId = other := fun same => apart same.symm
          rw [number_insert missing]
          simp only [elsewhere, false_and, if_false, add_zero]
  · exact skipRecipient_ends held present

theorem insertRecipients_ends (sha256 : String → String) (users : RecipientId → Bool)
    {args : NewBatch} (eligible : List Snapshot)
    (balanced : Balanced journal args.batchId (eligible.length : Int) 0)
    (known : ∃ batch, journal.batches.get? args.batchId = some batch) :
    Ends (· ≠ .check) (fun next => Balanced next args.batchId 0 0)
      (eligible.foldlM (insertRecipient sha256 users args) journal) := by
  let invariant (rest : List Snapshot) (next : Journal) : Prop :=
    Balanced next args.batchId (rest.length : Int) 0 ∧
      ∃ batch, next.batches.get? args.batchId = some batch
  have step : ∀ next recipient rest, invariant (recipient :: rest) next →
      Ends (· ≠ .check) (invariant rest) (insertRecipient sha256 users args next recipient) := by
    rintro next recipient rest ⟨now, there⟩
    exact insertRecipient_ends sha256 users recipient now there
  have initial : invariant eligible journal := ⟨balanced, known⟩
  exact (Ends.foldlM step eligible initial).mono fun _ held => held.1

theorem createBatch_ends (sound : Sound journal) (sha256 : String → String)
    (users : RecipientId → Bool) {args : NewBatch} (few : args.recipients.length ≤ 100) :
    Ends (· ≠ .check) (fun result => Sound result.1)
      (journal.createBatch sha256 users args) := by
  unfold createBatch
  split
  · exact sound
  · split
    · exact sound
    · apply Ends.bind (consumeParent_ends sound args)
      rintro ⟨consumed, recipients⟩ ⟨held, length⟩
      dsimp only at held length ⊢
      apply Ends.bind (insertBatch_ends held args (length.trans_le few))
      rintro inserted ⟨balanced, known⟩
      have loop := insertRecipients_ends sha256 users _ balanced known
      apply loop.bind
      intro final done
      exact done.sound

/-! ## Runs -/

theorem sound_start : Sound start where
  placed _ _ found := by cases found
  reconciled _ _ found := by cases found

theorem transact_ends (sha256 : String → String) (sound : Sound journal) {label : Label}
    (allowed : journal.Allowed label) :
    Ends (· ≠ .check) Sound (journal.transact sha256 label) := by
  cases label with
  | createBatch users args => exact (createBatch_ends sound sha256 users allowed).map
  | recordAdmission id admission => exact recordAdmission_ends sound allowed
  | claimBatch id task token revision => exact (claimBatch_ends sound task token revision).map
  | claimRecipient id recipient batchToken token =>
    exact (claimRecipient_ends sound recipient batchToken token).map
  | startAttempt attempt id recipient token sequence =>
    exact (startAttempt_ends sound attempt recipient token allowed).map
  | finishAttempt id token result =>
    exact (finishAttempt_ends sound id token allowed.1 allowed.2).map
  | finishRecipient id recipient token result =>
    exact (finishRecipient_ends sound recipient token allowed).map
  | finishBatch id token => exact (finishBatch_ends sound token).map
  | interruptBatch id => exact interruptBatch_ends sound

theorem Sound.step (sha256 : String → String) (label : Label) (sound : Sound journal)
    (allowed : journal.Allowed label) : Sound (journal.step sha256 label) := by
  have ends := transact_ends sha256 sound allowed
  unfold Journal.step
  cases result : journal.transact sha256 label with
  | ok next =>
    rw [result] at ends
    exact ends
  | error failure => exact sound

/-- In every reachable journal the counters of every batch are the numbers of
its rows, and no transaction that may follow violates a CHECK constraint. -/
theorem counters_reconciled (sha256 : String → String) (labels : List Label)
    (allowed : Run.Along (Journal.step sha256) Allowed start labels) :
    (∀ id batch, (Run.run (Journal.step sha256) start labels).batches.get? id = some batch →
      Counted (Run.run (Journal.step sha256) start labels).recipients id batch) ∧
    ∀ label, (Run.run (Journal.step sha256) start labels).Allowed label →
      (Run.run (Journal.step sha256) start labels).transact sha256 label ≠ .error .check := by
  have sound : Sound (Run.run (Journal.step sha256) start labels) :=
    allowed.invariant (fun _ label sound allowed => sound.step sha256 label allowed) sound_start
  constructor
  · intro id batch found
    exact (sound.reconciled id batch found).counted
  · intro label promised raised
    have ends := transact_ends sha256 sound promised
    rw [raised] at ends
    exact ends rfl

/-- A batch with a failed recipient, the retry that uses it up, and the rejected
admission of that retry. -/
theorem counters_reconciled_retry :
    let labels : List Label :=
      [.createBatch (fun id => decide (id < 3))
        ⟨1, 11, .tarot, .delivery, "2026-11-01", "",
          [⟨1, some 5, none, none⟩, ⟨2, some 5, none, none⟩, ⟨3, some 5, none, none⟩,
            ⟨4, none, some "account_missing", none⟩], none, none, false⟩,
       .recordAdmission 1 ⟨.accepted, some "task", none, "redis"⟩,
       .claimBatch 1 "task" 7 none, .claimRecipient 1 1 7 8, .startAttempt 21 1 1 8 1,
       .finishAttempt 21 8 ⟨"failed", "telegram_rate_limited", true, none⟩,
       .finishRecipient 1 1 8 ⟨"failed", "telegram_rate_limited", true, none⟩,
       .claimRecipient 1 2 7 9,
       .finishRecipient 1 2 9 ⟨"sent", "telegram_confirmed", false, some 3⟩,
       .finishBatch 1 7,
       .createBatch (fun id => decide (id < 3))
        ⟨2, 12, .tarot, .delivery, "2026-11-01", "", [⟨1, some 5, none, none⟩], some 1, none,
          false⟩,
       .recordAdmission 2 ⟨.rejected, none, some "capacity", "redis"⟩]
    let journal := Run.run (Journal.step fun text => text) start labels
    (∀ id batch, journal.batches.get? id = some batch → Counted journal.recipients id batch) ∧
    ∀ label, journal.Allowed label → journal.transact (fun text => text) label ≠ .error .check := by
  intro labels
  exact counters_reconciled (fun text => text) labels (by decide +kernel)

end Journal

end BobbyBotique.Broadcast
