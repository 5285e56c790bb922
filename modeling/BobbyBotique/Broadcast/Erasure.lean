import BobbyBotique.Broadcast.Tracking

/-!
# The counters and account erasure

The erasure of an account first removes the recipient rows of the account and counts them
out of their batches; a few statements later it deletes the account, and what recipient
rows the account has by then go with it, uncounted.  The two statements are two steps
here, so that other transactions may come between them.
-/

namespace BobbyBotique.Broadcast

/-- What the removal of a row in this state does to the counters of its batch. -/
def Batch.forget (batch : Batch) : Disposition → Batch
  | .pending => { batch with pending := batch.pending - 1, skipped := batch.skipped + 1 }
  | .started =>
    { batch with
      started := batch.started - 1, unknownDelivery := batch.unknownDelivery + 1 }
  | _ => batch

namespace Journal

/-- The recipient rows of an account go, and their attempts with them. -/
def without (journal : Journal) (user : RecipientId) : Journal :=
  { journal with
    recipients := journal.recipients.retain fun key _ => key.2 != user
    attempts := journal.attempts.retain fun _ attempt => attempt.recipientId != user }

/-- `pending=b.pending-c.pending, ..` of a batch, with the rows of the account it had. -/
def counted (journal : Journal) (user : RecipientId) (id : BatchId) (batch : Batch) : Batch :=
  match journal.recipients.get? (id, user) with
  | some row => batch.forget row.state
  | none => batch

/-- `WITH removed AS (DELETE FROM broadcast_recipients ..) UPDATE broadcast_batches ..`. -/
def removeRecipients (journal : Journal) (user : RecipientId) : Except Violation Journal :=
  if journal.batches.items.all fun item =>
      (journal.recipients.get? (item.1, user)).isNone ||
        (journal.counted user item.1 item.2).checks then
    .ok { journal.without user with batches := journal.batches.adjust (journal.counted user) }
  else .error .check

/-- `DELETE FROM users`, with its cascade. -/
def deleteUser (journal : Journal) (user : RecipientId) : Journal := journal.without user

end Journal

/-- A transaction of the journal, or one of the two statements of an erasure. -/
inductive Erasing where
  | transact (label : Label)
  | removeRecipients (user : RecipientId)
  | deleteUser (user : RecipientId)

namespace Journal

def erasingStep (sha256 : String → String) (journal : Journal) : Erasing → Journal
  | .transact label => journal.step sha256 label
  | .removeRecipients user => (journal.removeRecipients user).toOption.getD journal
  | .deleteUser user => journal.deleteUser user

/-- The callers keep their promises, and no deletion of an account takes a pending or a
started row along. -/
def Spares (journal : Journal) : Erasing → Prop
  | .transact label => journal.Allowed label
  | .removeRecipients _ => True
  | .deleteUser user => ∀ id row, journal.recipients.get? (id, user) = some row →
      row.state ≠ .pending ∧ row.state ≠ .started

end Journal

/-- What is left of a batch without the row of an account. -/
theorem number_without (rows : Rows) (user : RecipientId) (id : BatchId)
    (test : Recipient → Bool) :
    number (rows.retain fun key _ => key.2 != user) id test +
        ((rows.get? (id, user)).elim 0 fun row => if test row = true then 1 else 0) =
      number rows id test := by
  have moved := Dict.total_change (M := Int) (rows.retain fun key _ => key.2 != user) rows
    (fun key row => if key.1 = id ∧ test row = true then 1 else 0)
    (fun key row => if key.1 = id ∧ test row = true then 1 else 0) (id, user) ?_
  · simp only [Dict.weightAt, Dict.get?_retain, true_and] at moved
    unfold number
    cases found : rows.get? (id, user) with
    | none | some => simpa [found] using moved
  · intro other apart
    simp only [Dict.weightAt, Dict.get?_retain]
    cases found : rows.get? other with
    | none => rfl
    | some row =>
      rw [Option.filter_some]
      split
      · rfl
      · next dropped =>
          have same : other.2 = user := by simpa using dropped
          have elsewhere : ¬ other.1 = id := fun also => apart (Prod.ext also same)
          simp [elsewhere]

namespace Journal

variable {journal : Journal} {id : BatchId} {slack : BatchId → Int}

/-! ## Erasure -/

theorem counted_taskId (user : RecipientId) (batch : Batch) :
    (journal.counted user id batch).taskId = batch.taskId := by
  unfold counted
  cases journal.recipients.get? (id, user) with
  | none => rfl
  | some row => cases state : row.state <;> simp [Batch.forget, state]

/-- A row that is counted out of its batch. -/
theorem forget_tracked {rows next : Rows} {batch : Batch} {row : Recipient}
    (tracked : Tracked rows id batch 0)
    (left : ∀ test : Recipient → Bool,
      number next id test + (if test row = true then 1 else 0) = number rows id test) :
    Tracked next id (batch.forget row.state) 0 := by
  obtain ⟨waiting, going, unclaimed, closed⟩ := tracked
  have pending := left (inState .pending)
  have started := left (inState .started)
  have rest := number_nonneg next id (inState .pending)
  have more := number_nonneg next id (inState .started)
  cases state : row.state with
  | pending =>
    simp [inState, state] at pending started
    refine ⟨?_, going.trans started.symm, unclaimed, fun finished => ?_⟩
    · simp only [Batch.forget]
      omega
    · have none := closed finished
      omega
  | started =>
    simp [inState, state] at pending started
    refine ⟨?_, ?_, fun early => ?_, fun finished => ?_⟩
    · exact waiting.trans (congrArg (· + 0) pending.symm)
    · simp only [Batch.forget]
      omega
    · have none := unclaimed early
      omega
    · have none := closed finished
      omega
  | _ =>
    simp [inState, state] at pending started
    exact ⟨waiting.trans (congrArg (· + 0) pending.symm), going.trans started.symm, unclaimed,
      closed⟩

/-- Rows that are counted out of their batches. -/
theorem counted_tracked {batch : Batch} (tracked : Tracked journal.recipients id batch 0)
    (user : RecipientId) :
    Tracked (journal.without user).recipients id (journal.counted user id batch) 0 := by
  have left := number_without journal.recipients user id
  unfold counted
  cases found : journal.recipients.get? (id, user) with
  | none =>
    simp only [found, Option.elim_none, add_zero] at left
    exact tracked.congr (.of_forall left)
  | some row =>
    simp only [found, Option.elim_some] at left
    exact forget_tracked tracked left

theorem without_placed (watched : Watched journal slack) (user : RecipientId)
    {key : BatchId × RecipientId} {row : Recipient}
    (found : (journal.without user).recipients.get? key = some row) :
    ∃ batch, journal.batches.get? key.1 = some batch :=
  watched.placed key row ((Dict.get?_retain_eq_some _ _ _ _).mp found).1

theorem removeRecipients_watched (watched : Watched journal fun _ => 0) (user : RecipientId) :
    Ends (fun _ => True) (Watched · fun _ => 0) (journal.removeRecipients user) := by
  unfold removeRecipients
  split
  · next passes =>
      have source : ∀ {id after}, (journal.batches.adjust (journal.counted user)).get? id =
          some after → ∃ batch, journal.batches.get? id = some batch ∧
            after = journal.counted user id batch := by
        intro id after found
        rw [Dict.get?_adjust] at found
        obtain ⟨batch, was, same⟩ := Option.map_eq_some_iff.mp found
        exact ⟨batch, was, same.symm⟩
      constructor
      case placed =>
        intro key row found
        obtain ⟨batch, present⟩ := without_placed watched user found
        exact ⟨journal.counted user key.1 batch, by rw [Dict.get?_adjust, present]; rfl⟩
      case checked =>
        intro id after found
        obtain ⟨batch, was, rfl⟩ := source found
        have checks := List.all_eq_true.mp passes (id, batch)
          ((journal.batches.mem_items_iff id batch).mpr was)
        cases row : journal.recipients.get? (id, user) with
        | none =>
          rw [counted, row]
          exact watched.checked id batch was
        | some row' => simpa [row] using checks
      case named =>
        intro id after found
        obtain ⟨batch, was, rfl⟩ := source found
        rw [taskTaken_eq_false, counted_taskId]
        intro other rival present apart same
        obtain ⟨batch', was', rfl⟩ := source present
        rw [counted_taskId] at same
        exact taskTaken_eq_false.mp (watched.named id batch was) other batch' was' apart same
      case tracked =>
        intro id after found
        obtain ⟨batch, was, rfl⟩ := source found
        exact counted_tracked (watched.tracked id batch was) user
  · trivial

theorem deleteUser_watched (watched : Watched journal fun _ => 0) {user : RecipientId}
    (spared : journal.Spares (.deleteUser user)) :
    Watched (journal.deleteUser user) fun _ => 0 := by
  refine watched.changeRows (fun key row found => without_placed watched user found) ?_
  intro id batch present
  have left := number_without journal.recipients user id
  refine (watched.tracked id batch present).congr ⟨?_, ?_⟩
  · rw [← left]
    cases found : journal.recipients.get? (id, user) with
    | none => simp
    | some row => simp [inState, (spared id row found).1]
  · rw [← left]
    cases found : journal.recipients.get? (id, user) with
    | none => simp
    | some row => simp [inState, (spared id row found).2]

/-! ## Runs -/

theorem Watched.erasingStep (sha256 : String → String) (watched : Watched journal fun _ => 0)
    (step : Erasing) (spared : journal.Spares step) :
    Watched (journal.erasingStep sha256 step) fun _ => 0 := by
  cases step with
  | transact label => exact watched.ok (transact_watched sha256 watched spared)
  | removeRecipients user => exact watched.ok (removeRecipients_watched watched user)
  | deleteUser user => exact deleteUser_watched watched spared

/-- The open counters of every batch are the numbers of its open rows, and its owner
finishes it once no row is open. -/
def Survives (journal : Journal) : Prop :=
  ∀ id batch, journal.batches.get? id = some batch →
    batch.pending = number journal.recipients id (inState .pending) ∧
      batch.started = number journal.recipients id (inState .started) ∧
      ∀ token, batch.ownerToken = some token →
        (∀ recipient row, journal.recipients.get? (id, recipient) = some row →
          row.state ≠ .pending ∧ row.state ≠ .started) →
        ∃ next, journal.finishBatch id token = .ok (next, true)

/--
In every run of transactions and erasures in which no deletion of an account takes a
pending or a started row along: the open counters of every batch are the numbers of its
open rows, and once its rows are processed its owner finishes it.
-/
theorem erasure_survived (sha256 : String → String) (steps : List Erasing)
    (spared : Run.Along (erasingStep sha256) Spares start steps) :
    Survives (Run.run (erasingStep sha256) start steps) := by
  have watched : Watched (Run.run (erasingStep sha256) start steps) fun _ => 0 :=
    spared.carries (Watched · fun _ => 0) watched_start fun _ step watched spared =>
      watched.erasingStep sha256 step spared
  intro id batch found
  obtain ⟨pending, started, _, _⟩ := watched.tracked id batch found
  rw [add_zero] at pending
  exact ⟨pending, started, fun token owned processed => watched.finishes found owned processed⟩

instance (journal : Journal) (step : Erasing) : Decidable (journal.Spares step) := by
  cases step with
  | transact label => exact inferInstanceAs (Decidable (journal.Allowed label))
  | removeRecipients user => exact instDecidableTrue
  | deleteUser user =>
    refine decidable_of_iff (∀ item ∈ journal.recipients.items, item.1.2 = user →
      item.2.state ≠ .pending ∧ item.2.state ≠ .started) ⟨?_, ?_⟩
    · intro all id row found
      exact all ((id, user), row) ((journal.recipients.mem_items_iff _ row).mpr found) rfl
    · rintro spares ⟨⟨id, recipient⟩, row⟩ member rfl
      exact spares id row ((journal.recipients.mem_items_iff _ row).mp member)

/-- A batch of the accounts 1 and 2, claimed by its worker. -/
def claimed (recipients : List RecipientId) : List Erasing :=
  [.transact (.createBatch (fun _ => true) ⟨1, 11, .tarot, .delivery, "2026-11-01", "",
      recipients.map fun recipient => ⟨recipient, some 5, none, none⟩, none, none, false⟩),
    .transact (.recordAdmission 1 ⟨.accepted, some "task", none, "redis"⟩),
    .transact (.claimBatch 1 "task" 7 none)]

/-- The account of one recipient is erased while another one is served. -/
theorem erasure_survived_second :
    Survives (Run.run (erasingStep fun text => text) start (claimed [1, 2] ++
      [.transact (.claimRecipient 1 1 7 8), .removeRecipients 2, .deleteUser 2,
        .transact (.finishRecipient 1 1 8 ⟨"sent", "telegram_confirmed", false, some 3⟩)])) :=
  erasure_survived (fun text => text) _ (by decide +kernel)

/-- The callers keep their promises. -/
def Promised (journal : Journal) : Erasing → Prop
  | .transact label => journal.Allowed label
  | _ => True

instance (journal : Journal) (step : Erasing) : Decidable (journal.Promised step) := by
  cases step with
  | transact label => exact inferInstanceAs (Decidable (journal.Allowed label))
  | removeRecipients user => exact instDecidableTrue
  | deleteUser user => exact instDecidableTrue

/-- A batch that is created between the two statements of an erasure loses a row uncounted. -/
theorem row_lost : ¬ ∀ (sha256 : String → String) (steps : List Erasing),
    Run.Along (erasingStep sha256) Promised start steps →
      Survives (Run.run (erasingStep sha256) start steps) := by
  intro survives
  have lost := survives (fun text => text)
    (.removeRecipients 1 :: claimed [1] ++ [.deleteUser 1]) (by decide +kernel)
  generalize reached : Run.run (erasingStep fun text => text) start
    (.removeRecipients 1 :: claimed [1] ++ [.deleteUser 1]) = journal at lost
  have counter : (journal.batches.get? 1).any (fun batch => batch.pending == 1) = true := by
    rw [← reached]
    decide +kernel
  have none : number journal.recipients 1 (inState .pending) = 0 := by
    rw [← reached]
    decide +kernel
  simp only [Option.any_eq_true, beq_iff_eq] at counter
  obtain ⟨batch, found, one⟩ := counter
  have same := (lost 1 batch found).1
  omega

end Journal

end BobbyBotique.Broadcast
