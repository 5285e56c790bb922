import BobbyBotique.Privacy.Barrier

/-!
# Stale consent and failed barriers

A generation that was read authorizes a lease only while nothing has given the
row a new one.  When all barriers of a user have failed and were compensated,
the row is open again with the consent it had before the first.
-/

namespace BobbyBotique.Privacy

open Run

namespace Consent

variable {state : Consent} {label : ConsentLabel} {name : BarrierId} {epoch : Nat}

/-- The transaction gives the row a new generation, or deletes it: a barrier, a
compensation that finds its barrier, a second phase, a new row, a revocation. -/
def Renews (state : Consent) : ConsentLabel → Prop
  | .barrier name _ => state.barriers.get? name = none ∧ state.account = true
  | .compensate name => ∃ barrier ∈ state.barriers.get? name, state.holds barrier = true
  | .eraseAccount name => ∃ barrier ∈ state.barriers.get? name, state.holds barrier = true
  | .clearMemories name => ∃ barrier ∈ state.barriers.get? name, state.holds barrier = true
  | .createChat _ => state.chat = none ∧ state.account = true
  | .setLtmEnabled enabled =>
    match state.chat with
    | none => state.account = true
    | some chat => chat.privateDataBlocked = false ∧ chat.ltmEnabled = true ∧ enabled = false
  | _ => False

theorem past_of_drawn {next : Consent} (drawn : epoch ≤ state.sequence)
    (grown : next.sequence = state.sequence + 1)
    (row : next.chat.map Chat.memoryEpoch = some (state.sequence + 1)) : next.Past epoch := by
  refine ⟨grown ▸ drawn.trans (Nat.le_succ _), fun chat found => ?_⟩
  rw [Option.mem_def.mp found] at row
  exact Option.some.inj row ▸ Nat.lt_succ_of_le drawn

/-- A new generation leaves every drawn one behind. -/
theorem past_of_renews (drawn : epoch ≤ state.sequence) (renews : state.Renews label) :
    (state.step label).Past epoch := by
  cases label with
  | barrier name ltmOnly =>
    obtain ⟨fresh, account⟩ := renews
    simp only [step, fresh, commitBarrier, account, if_true]
    exact past_of_drawn drawn rfl rfl
  | compensate name =>
    obtain ⟨barrier, found, held⟩ := renews
    simp only [step, Option.mem_def.mp found, restore, held, if_true]
    exact past_of_drawn drawn rfl rfl
  | eraseAccount name =>
    obtain ⟨barrier, found, held⟩ := renews
    simp only [step, Option.mem_def.mp found, held, if_true]
    exact ⟨drawn, by rintro _ ⟨⟩⟩
  | clearMemories name =>
    obtain ⟨barrier, found, held⟩ := renews
    simp only [step, Option.mem_def.mp found, held, if_true]
    exact past_of_drawn drawn rfl rfl
  | createChat ltmEnabled =>
    obtain ⟨missing, account⟩ := renews
    simp only [step, missing, account, if_true]
    exact past_of_drawn drawn rfl rfl
  | setLtmEnabled enabled =>
    simp only [Renews] at renews
    simp only [step, setLtm]
    split at renews
    · next missing =>
        simp only [missing, renews, if_true]
        exact past_of_drawn drawn rfl rfl
    · next chat found =>
        obtain ⟨opened, allowed, rfl⟩ := renews
        simp only [found, opened, allowed, Bool.false_eq_true, if_false, Bool.not_false,
          Bool.and_self, if_true]
        exact past_of_drawn drawn rfl rfl
  | tick | burn | enroll | acquire | renewSnapshot | renewWrite | release | purge | drain
  | sweep => exact absurd renews id

theorem step_sequence (state : Consent) (label : ConsentLabel) :
    state.sequence ≤ (state.step label).sequence := by
  cases step_moves state label with
  | stays grown row blocked => exact grown
  | drawn grown row => exact grown ▸ Nat.le_succ _
  | deleted grown row => exact grown.ge

/-- A lease of a captured generation shows that nothing renewed it since. -/
theorem unrenewed_of_grants {labels : List ConsentLabel} {lease : LeaseId} {purpose : String}
    {requireLtm : Bool} (drawn : epoch ≤ state.sequence)
    (granted : (run step state labels).grants lease (some epoch) purpose requireLtm = true) :
    Along step (fun state label => ¬ state.Renews label) state labels := by
  induction labels generalizing state with
  | nil => trivial
  | cons label rest ih =>
    refine ⟨fun renews => ?_, ih (drawn.trans (step_sequence state label)) granted⟩
    have past := run_past (past_of_renews drawn renews) rest
    have refused : (run step (state.step label) rest).grants lease (some epoch) purpose
        requireLtm = false := grants_false (current_of_past past le_rfl requireLtm)
    rw [run_cons, refused] at granted
    cases granted

/-! ## Failed barriers -/

/-- The row carries this consent; if it is blocked, the barrier that blocks it
has not been compensated; every barrier captured this consent. -/
structure Undone (ltmEnabled : Bool) (state : Consent) : Prop where
  row : ∃ chat, state.chat = some chat ∧ chat.ltmEnabled = ltmEnabled ∧
    (chat.privateDataBlocked = true → ∃ name barrier, state.barriers.get? name = some barrier ∧
      barrier.barrierEpoch = chat.memoryEpoch ∧ barrier.compensated = false)
  captured : ∀ name barrier, state.barriers.get? name = some barrier →
    barrier.previousLtmEnabled = ltmEnabled

/-- Some second phase has committed. -/
def Completed (state : Consent) : Prop :=
  ∃ name barrier, state.barriers.get? name = some barrier ∧ barrier.completed = true

theorem step_completed (completed : state.Completed) : (state.step label).Completed := by
  obtain ⟨name, barrier, found, done⟩ := completed
  obtain ⟨after, stored, continues, -⟩ := @continues_of_step state label name barrier found
  exact ⟨name, after, stored, continues.completed done⟩

variable {ltmEnabled : Bool}

theorem Undone.same {next : Consent} (undone : state.Undone ltmEnabled)
    (row : next.chat = state.chat) (records : next.barriers = state.barriers) :
    next.Undone ltmEnabled := by
  refine ⟨?_, ?_⟩
  · rw [row, records]
    exact undone.row
  · rw [records]
    exact undone.captured

/-- A new record of a barrier with the same captured consent. -/
theorem Undone.captured_set (undone : state.Undone ltmEnabled) {other : BarrierId}
    {after : Barrier} (same : after.previousLtmEnabled = ltmEnabled) (found : BarrierId)
    (barrier : Barrier) (stored : (state.barriers.set other after).get? found = some barrier) :
    barrier.previousLtmEnabled = ltmEnabled := by
  rw [Dict.get?_set] at stored
  split at stored
  · cases stored
    exact same
  · exact undone.captured found barrier stored

/-- A barrier that moves on to its next stage still blocks the row. -/
theorem Undone.staged {next : Consent} {barrier : Barrier} {stage : Stage}
    (undone : state.Undone ltmEnabled) (found : state.barriers.get? name = some barrier)
    (row : next.chat = state.chat)
    (records : next.barriers = state.barriers.set name { barrier with stage := stage }) :
    next.Undone ltmEnabled := by
  obtain ⟨chat, held, consent, blocks⟩ := undone.row
  refine ⟨⟨chat, row.trans held, consent, fun blocked => ?_⟩, ?_⟩
  · obtain ⟨other, record, stored, generation, open_⟩ := blocks blocked
    rw [records]
    by_cases same : other = name
    · rw [same] at stored
      cases found.symm.trans stored
      exact ⟨name, _, Dict.get?_set_self _ _ _, generation, open_⟩
    · exact ⟨other, record, (Dict.get?_set_ne _ _ same).trans stored, generation, open_⟩
  · rw [records]
    exact undone.captured_set (undone.captured name barrier found)

theorem Undone.barrier {ltmOnly : Bool} (undone : state.Undone ltmEnabled) :
    (state.commitBarrier name ltmOnly).Undone ltmEnabled := by
  obtain ⟨chat, held, consent, -⟩ := undone.row
  unfold commitBarrier
  split
  · simp only [held]
    refine ⟨⟨_, rfl, consent, fun _ => ⟨name, _, Dict.get?_set_self _ _ _, rfl, rfl⟩⟩, ?_⟩
    exact undone.captured_set consent
  · exact undone

/-- A compensation opens the row with the captured consent, or its barrier is
not the one that blocks the row. -/
theorem Undone.compensate {barrier : Barrier} (undone : state.Undone ltmEnabled)
    (found : state.barriers.get? name = some barrier) :
    ((state.restore barrier).setBarrier name { barrier with compensated := true }).Undone
      ltmEnabled := by
  have captured := undone.captured name barrier found
  obtain ⟨chat, held, consent, blocks⟩ := undone.row
  by_cases current : state.holds barrier = true
  · simp only [restore, current, if_true]
    refine ⟨⟨_, rfl, captured, fun blocked => Bool.noConfusion blocked⟩, ?_⟩
    exact undone.captured_set captured
  · rw [restore, if_neg current]
    refine ⟨⟨chat, held, consent, fun blocked => ?_⟩, undone.captured_set captured⟩
    obtain ⟨other, record, stored, generation, open_⟩ := blocks blocked
    have ne : other ≠ name := by
      rintro rfl
      cases found.symm.trans stored
      apply current
      simp only [holds, held, generation, blocked, decide_true, Bool.and_self]
    exact ⟨other, record, (Dict.get?_set_ne _ _ ne).trans stored, generation, open_⟩

theorem step_undone (undone : state.Undone ltmEnabled)
    (unchanged : ∀ enabled, label ≠ .setLtmEnabled enabled) :
    (state.step label).Completed ∨ (state.step label).Undone ltmEnabled := by
  have idle : state.Completed ∨ state.Undone ltmEnabled := .inr undone
  cases label with
  | tick | burn | enroll => exact .inr (undone.same rfl rfl)
  | createChat enabled =>
    obtain ⟨chat, held, -⟩ := undone.row
    simp only [step, held]
    exact idle
  | setLtmEnabled enabled => exact absurd rfl (unchanged enabled)
  | acquire lease expectedEpoch purpose requireLtm =>
    simp only [step]
    split
    · split
      · exact idle
      · exact .inr (undone.same rfl rfl)
    · exact idle
  | renewSnapshot lease =>
    simp only [step]
    split
    · exact idle
    · split
      · exact .inr (undone.same rfl rfl)
      · exact idle
  | renewWrite lease =>
    simp only [step]
    split
    · exact idle
    · exact .inr (undone.same rfl rfl)
  | release | purge => exact .inr (undone.same rfl rfl)
  | barrier name ltmOnly =>
    simp only [step]
    split
    · exact idle
    · exact .inr undone.barrier
  | drain name =>
    simp only [step]
    split
    · exact idle
    · next barrier found =>
        split
        · exact .inr (undone.staged found rfl rfl)
        · exact .inr (undone.same rfl rfl)
  | sweep name =>
    simp only [step]
    split
    · exact idle
    · next barrier found =>
        split
        · exact .inr (undone.staged found rfl rfl)
        · exact idle
  | compensate name =>
    simp only [step]
    split
    · exact idle
    · next barrier found => exact .inr (undone.compensate found)
  | eraseAccount name | clearMemories name =>
    simp only [step]
    split
    · exact idle
    · split
      · exact .inl ⟨name, _, Dict.get?_set_self _ _ _, rfl⟩
      · exact idle

theorem run_undone {labels : List ConsentLabel} (undone : state.Undone ltmEnabled)
    (unchanged : ∀ enabled, .setLtmEnabled enabled ∉ labels) :
    (run step state labels).Completed ∨ (run step state labels).Undone ltmEnabled := by
  induction labels generalizing state with
  | nil => exact .inr undone
  | cons label rest ih =>
    have apart : ∀ enabled, label ≠ .setLtmEnabled enabled := by
      rintro enabled rfl
      exact unchanged enabled List.mem_cons_self
    rcases step_undone undone apart with completed | undone
    · exact .inl (run_keeps Completed (fun _ _ => step_completed) completed rest)
    · exact ih undone fun enabled member => unchanged enabled (List.mem_cons_of_mem label member)

end Consent

/-- A captured generation that opens a lease was not followed by any step that
renews the generation.  And when every barrier of a user has failed and was
compensated, the row is unblocked with the consent it had before the first. -/
theorem stale_consent_stays_stale (start : Consent) (settled : start.Settled) :
    (∀ first second epoch lease purpose requireLtm,
      (run Consent.step start first).chat.map Chat.memoryEpoch = some epoch →
        (run Consent.step (run Consent.step start first) second).grants lease (some epoch) purpose
          requireLtm = true →
        Along Consent.step (fun state label => ¬ state.Renews label)
          (run Consent.step start first) second) ∧
    ∀ chat labels, start.chat = some chat → chat.privateDataBlocked = false →
      (∀ enabled, .setLtmEnabled enabled ∉ labels) →
      (∀ name barrier, (run Consent.step start labels).barriers.get? name = some barrier →
        barrier.compensated = true ∧ barrier.completed = false) →
      ∃ after, (run Consent.step start labels).chat = some after ∧
        after.privateDataBlocked = false ∧ after.ltmEnabled = chat.ltmEnabled := by
  constructor
  · intro first second epoch lease purpose requireLtm captured granted
    apply Consent.unrenewed_of_grants _ granted
    obtain ⟨chat, held, rfl⟩ := Option.map_eq_some_iff.mp captured
    exact Consent.run_drawn settled first chat held
  · intro chat labels held opened unchanged failed
    have undone : start.Undone chat.ltmEnabled := by
      refine ⟨⟨chat, held, rfl, fun blocked => ?_⟩, fun name barrier found => ?_⟩
      · cases opened.symm.trans blocked
      · cases (settled.idle name).symm.trans found
    rcases Consent.run_undone undone unchanged with ⟨name, barrier, found, done⟩ | ⟨row, -⟩
    · cases (failed name barrier found).2.symm.trans done
    · obtain ⟨after, stored, consent, blocks⟩ := row
      refine ⟨after, stored, Bool.eq_false_iff.mpr fun blocked => ?_, consent⟩
      obtain ⟨name, barrier, found, -, pending⟩ := blocks blocked
      cases (failed name barrier found).1.symm.trans pending

/-- Two barriers overlap; the first is replaced by the second, and both fail. -/
def overlappingFailures : List ConsentLabel :=
  [.barrier 0 true, .barrier 1 false, .compensate 0, .drain 1, .compensate 1]

theorem stale_consent_stays_stale_overlapping :
    Along Consent.step (fun state label => ¬ state.Renews label) openAccount
        [.tick 5, .acquire 0 (some 1) "ltm:recall" true] ∧
      ∃ after, (run Consent.step openAccount overlappingFailures).chat = some after ∧
        after.privateDataBlocked = false ∧ after.ltmEnabled = true := by
  obtain ⟨unrenewed, restored⟩ := stale_consent_stays_stale openAccount openAccount_settled
  constructor
  · exact unrenewed [] _ 1 1 "ltm:recall" true rfl (by decide +kernel)
  · apply restored ⟨1, false, true⟩ overlappingFailures rfl rfl
    · intro enabled member
      simp only [overlappingFailures, List.mem_cons, reduceCtorEq, List.not_mem_nil, or_self]
        at member
    · intro name barrier found
      have listed := (Dict.mem_values_iff _ barrier).mpr ⟨name, found⟩
      have all : ∀ each ∈ (run Consent.step openAccount overlappingFailures).barriers.values,
          each.compensated = true ∧ each.completed = false := by decide +kernel
      exact all barrier listed

end BobbyBotique.Privacy
