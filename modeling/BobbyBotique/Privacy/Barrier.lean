import BobbyBotique.Privacy.Consent

/-!
# Generations never come back

Every generation is drawn from one sequence and none is drawn twice.  Once a
row has moved past a generation no lease of it can be taken or renewed, so a
barrier that has swept the older leases finds none again; and a barrier that is
undone leaves the row as it was before.
-/

namespace BobbyBotique.Privacy

open Run

namespace Consent

variable {state : Consent} {label : ConsentLabel} {name : BarrierId} {epoch : Nat}

/-! ## The chat row after a step -/

/-- What a step does to the chat row and the sequence: the generation stays, or
it is drawn anew, or the row is deleted. -/
inductive Moves (state next : Consent) : Prop where
  | stays (grown : state.sequence ≤ next.sequence)
      (row : next.chat.map Chat.memoryEpoch = state.chat.map Chat.memoryEpoch)
      (blocked : next.chat.map Chat.privateDataBlocked = state.chat.map Chat.privateDataBlocked)
  | drawn (grown : next.sequence = state.sequence + 1)
      (row : next.chat.map Chat.memoryEpoch = some (state.sequence + 1))
  | deleted (grown : next.sequence = state.sequence) (row : next.chat = none)

theorem stays_of_chat {next : Consent} (grown : state.sequence ≤ next.sequence)
    (row : next.chat = state.chat) : Moves state next :=
  .stays grown (congrArg _ row) (congrArg _ row)

theorem setLtm_moves (state : Consent) (enabled : Bool) : Moves state (state.setLtm enabled) := by
  unfold setLtm
  split
  · split
    · exact .drawn rfl rfl
    · exact stays_of_chat le_rfl rfl
  · next chat found =>
      split
      · exact stays_of_chat le_rfl rfl
      · split
        · exact .drawn rfl rfl
        · exact .stays le_rfl (by rw [found]; rfl) (by rw [found]; rfl)

theorem restore_moves (state : Consent) (barrier : Barrier) : Moves state (state.restore barrier) := by
  unfold restore
  split
  · exact .drawn rfl rfl
  · exact stays_of_chat le_rfl rfl

theorem step_moves (state : Consent) (label : ConsentLabel) : Moves state (state.step label) := by
  have idle : Moves state state := stays_of_chat le_rfl rfl
  cases label with
  | tick instant => exact stays_of_chat le_rfl rfl
  | burn => exact stays_of_chat (Nat.le_succ _) rfl
  | enroll => exact stays_of_chat le_rfl rfl
  | createChat ltmEnabled =>
    simp only [step]
    split
    · exact idle
    · split
      · exact .drawn rfl rfl
      · exact idle
  | setLtmEnabled enabled => exact setLtm_moves state enabled
  | acquire lease expectedEpoch purpose requireLtm =>
    simp only [step]
    split
    · split
      · exact idle
      · exact stays_of_chat le_rfl rfl
    · exact idle
  | renewSnapshot lease =>
    simp only [step]
    split
    · exact idle
    · split
      · exact stays_of_chat le_rfl rfl
      · exact idle
  | renewWrite lease =>
    simp only [step]
    split
    · exact idle
    · exact stays_of_chat le_rfl rfl
  | release | purge => exact stays_of_chat le_rfl rfl
  | barrier name ltmOnly =>
    simp only [step]
    split
    · exact idle
    · unfold commitBarrier
      split
      · exact .drawn rfl rfl
      · exact idle
  | drain name =>
    simp only [step]
    split
    · exact idle
    · split
      · exact stays_of_chat le_rfl rfl
      · exact stays_of_chat le_rfl rfl
  | sweep name =>
    simp only [step]
    split
    · exact idle
    · split
      · exact stays_of_chat le_rfl rfl
      · exact idle
  | compensate name =>
    simp only [step]
    split
    · exact idle
    · next barrier found =>
        cases restore_moves state barrier with
        | stays grown row blocked => exact .stays grown row blocked
        | drawn grown row => exact .drawn grown row
        | deleted grown row => exact .deleted grown row
  | eraseAccount name =>
    simp only [step]
    split
    · exact idle
    · split
      · exact .deleted rfl rfl
      · exact idle
  | clearMemories name =>
    simp only [step]
    split
    · exact idle
    · split
      · exact .drawn rfl rfl
      · exact idle

/-- The generation was drawn and the row has moved past it. -/
structure Past (epoch : Nat) (state : Consent) : Prop where
  drawn : epoch ≤ state.sequence
  later : ∀ chat ∈ state.chat, epoch < chat.memoryEpoch

theorem step_past (past : state.Past epoch) (label : ConsentLabel) :
    (state.step label).Past epoch := by
  cases step_moves state label with
  | stays grown row blocked =>
    refine ⟨past.drawn.trans grown, fun chat found => ?_⟩
    rw [Option.mem_def.mp found] at row
    obtain ⟨earlier, before, same⟩ := Option.map_eq_some_iff.mp row.symm
    exact same ▸ past.later earlier before
  | drawn grown row =>
    refine ⟨grown ▸ past.drawn.trans (Nat.le_succ _), fun chat found => ?_⟩
    rw [Option.mem_def.mp found] at row
    have same : chat.memoryEpoch = state.sequence + 1 := Option.some.inj row
    exact same ▸ Nat.lt_succ_of_le past.drawn
  | deleted grown row =>
    refine ⟨grown ▸ past.drawn, fun chat found => ?_⟩
    rw [row] at found
    cases found

theorem run_past (past : state.Past epoch) (labels : List ConsentLabel) :
    (run step state labels).Past epoch :=
  run_keeps (Past epoch) (fun _ label past => step_past past label) past labels

/-- A row past the generation authorizes nothing of it. -/
theorem current_of_past (past : state.Past epoch) {expected : Nat} (le : expected ≤ epoch)
    (requireLtm : Bool) : state.current expected requireLtm = false := by
  unfold current
  split
  · rfl
  · next chat found =>
      have ne : chat.memoryEpoch ≠ expected := (le.trans_lt (past.later chat found)).ne'
      simp only [decide_eq_false ne, Bool.and_false, Bool.false_and]

theorem grants_false {expected : Nat} {lease : LeaseId} {purpose : String} {requireLtm : Bool}
    (refused : state.current expected requireLtm = false) :
    state.grants lease (some expected) purpose requireLtm = false := by
  simp only [grants, refused, Bool.and_false]

/-- Every generation in use was drawn. -/
theorem step_drawn (drawn : ∀ chat ∈ state.chat, chat.memoryEpoch ≤ state.sequence) :
    ∀ chat ∈ (state.step label).chat, chat.memoryEpoch ≤ (state.step label).sequence := by
  intro chat found
  cases step_moves state label with
  | stays grown row blocked =>
    rw [Option.mem_def.mp found] at row
    obtain ⟨earlier, before, same⟩ := Option.map_eq_some_iff.mp row.symm
    exact same ▸ (drawn earlier before).trans grown
  | drawn grown row =>
    rw [Option.mem_def.mp found] at row
    have same : chat.memoryEpoch = state.sequence + 1 := Option.some.inj row
    exact (same.trans grown.symm).le
  | deleted grown row =>
    rw [row] at found
    cases found

/-! ## The lease rows after a step -/

/-- A lease row was there before with its generation and purpose, or it was
inserted with the generation of the chat row. -/
theorem lease_of_step {lease : LeaseId} {row : Lease}
    (found : (state.step label).leases.get? lease = some row) :
    (∃ before, state.leases.get? lease = some before ∧ before.memoryEpoch = row.memoryEpoch ∧
      before.purpose = row.purpose) ∨
    ∃ chat ∈ state.chat, row.memoryEpoch = chat.memoryEpoch := by
  have kept (same : state.leases.get? lease = some row) :
      (∃ before, state.leases.get? lease = some before ∧ before.memoryEpoch = row.memoryEpoch ∧
        before.purpose = row.purpose) ∨
      ∃ chat ∈ state.chat, row.memoryEpoch = chat.memoryEpoch :=
    .inl ⟨row, same, rfl, rfl⟩
  cases label with
  | tick | burn | enroll => exact kept found
  | createChat ltmEnabled =>
    simp only [step] at found
    split at found
    · exact kept found
    · split at found
      · exact kept found
      · exact kept found
  | setLtmEnabled enabled =>
    simp only [step, setLtm] at found
    split at found
    · split at found
      · exact kept found
      · exact kept found
    · split at found
      · exact kept found
      · split at found
        · exact kept found
        · exact kept found
  | acquire other expectedEpoch purpose requireLtm =>
    simp only [step] at found
    split at found
    · split at found
      · exact kept found
      · next chat stored =>
          rw [Dict.get?_set] at found
          split at found
          · cases found
            exact .inr ⟨chat, stored, rfl⟩
          · exact kept found
    · exact kept found
  | renewSnapshot other =>
    simp only [step] at found
    split at found
    · exact kept found
    · split at found
      · exact kept found
      · exact kept found
  | renewWrite other =>
    simp only [step] at found
    split at found
    · exact kept found
    · rw [Dict.get?_modify] at found
      split at found
      · obtain ⟨before, stored, rfl⟩ := Option.map_eq_some_iff.mp found
        exact .inl ⟨before, stored, rfl, rfl⟩
      · exact kept found
  | release other => exact kept (Dict.get?_del_eq_some.mp found).2
  | purge => exact kept ((Dict.get?_retain_eq_some _ _ _ _).mp found).1
  | barrier name ltmOnly =>
    simp only [step, commitBarrier] at found
    split at found
    · exact kept found
    · split at found
      · exact kept found
      · exact kept found
  | drain name =>
    simp only [step] at found
    split at found
    · exact kept found
    · split at found
      · exact kept ((Dict.get?_retain_eq_some _ _ _ _).mp found).1
      · exact kept ((Dict.get?_retain_eq_some _ _ _ _).mp found).1
  | sweep name =>
    simp only [step] at found
    split at found
    · exact kept found
    · split at found
      · exact kept ((Dict.get?_retain_eq_some _ _ _ _).mp found).1
      · exact kept found
  | compensate name =>
    simp only [step, restore] at found
    split at found
    · exact kept found
    · next barrier stored =>
        have same : (if state.holds barrier then state.unblock barrier.previousLtmEnabled
            else state).leases = state.leases := by
          split
          · rfl
          · rfl
        exact kept (same ▸ found)
  | eraseAccount name | clearMemories name =>
    simp only [step] at found
    split at found
    · exact kept found
    · split at found
      · exact kept found
      · exact kept found

/-- No lease of an older generation in the scope is in the table. -/
def Drained (beforeEpoch : Nat) (ltmOnly : Bool) (state : Consent) : Prop :=
  ∀ lease row, state.leases.get? lease = some row → old beforeEpoch ltmOnly row = false

/-- Where the row has reached the barrier's generation, a drained table stays so. -/
theorem step_stays_drained {ltmOnly : Bool} (past : state.Past epoch)
    (drained : state.Drained (epoch + 1) ltmOnly) :
    (state.step label).Drained (epoch + 1) ltmOnly := by
  intro lease row found
  rcases lease_of_step found with ⟨before, stored, sameEpoch, samePurpose⟩ | ⟨chat, held, same⟩
  · have young := drained lease before stored
    rw [old, inScope, ← sameEpoch, ← samePurpose]
    exact young
  · have later : ¬ row.memoryEpoch < epoch + 1 := by
      rw [same]
      exact Nat.not_lt.mpr (past.later chat held)
    rw [old, decide_eq_false later, Bool.false_and]

/-! ## Barrier records -/

/-- A later record of a barrier. -/
structure Continues (barrier after : Barrier) : Prop where
  epoch : after.barrierEpoch = barrier.barrierEpoch
  previous : after.previousLtmEnabled = barrier.previousLtmEnabled
  scope : after.ltmOnly = barrier.ltmOnly
  completed : barrier.completed = true → after.completed = true
  stage : barrier.stage ≠ .draining → after.stage ≠ .draining

theorem Continues.refl (barrier : Barrier) : Continues barrier barrier :=
  ⟨rfl, rfl, rfl, id, id⟩

/-- What a step does to the barrier records. -/
inductive Recorded (state next : Consent) : Prop where
  | same (records : next.barriers = state.barriers)
  | new (other : BarrierId) (barrier : Barrier) (fresh : state.barriers.get? other = none)
      (records : next.barriers = state.barriers.set other barrier)
      (stage : barrier.stage = .draining)
      (row : next.chat = some ⟨barrier.barrierEpoch, true, barrier.previousLtmEnabled⟩)
      (untouched : barrier.compensated = false)
      (previous : ∀ chat ∈ state.chat, barrier.previousLtmEnabled = chat.ltmEnabled)
  | updated (other : BarrierId) (barrier after : Barrier)
      (found : state.barriers.get? other = some barrier)
      (records : next.barriers = state.barriers.set other after) (continues : Continues barrier after)
      (checked : barrier.stage = .draining → after.stage ≠ .draining →
        next.Drained barrier.barrierEpoch barrier.ltmOnly)

/-- The check that ends a drain: the expired rows are gone, and no other was counted. -/
theorem drained_of_check {leases : Dict LeaseId Lease} {beforeEpoch : Nat} {ltmOnly : Bool}
    (none : (leases.values.any fun row => old beforeEpoch ltmOnly row) = false) {lease : LeaseId}
    {row : Lease} (found : leases.get? lease = some row) : old beforeEpoch ltmOnly row = false := by
  have value := (leases.mem_values_iff row).mpr ⟨lease, found⟩
  exact Bool.not_eq_true _ |>.mp (List.any_eq_false.mp none row value)

theorem commitBarrier_recorded {ltmOnly : Bool} (fresh : state.barriers.get? name = none) :
    Recorded state (state.commitBarrier name ltmOnly) := by
  unfold commitBarrier
  split
  · refine .new name _ fresh rfl rfl rfl rfl ?_
    intro chat found
    simp only [Option.mem_def.mp found]
  · exact .same rfl

theorem step_recorded (state : Consent) (label : ConsentLabel) :
    Recorded state (state.step label) := by
  have idle : Recorded state state := .same rfl
  cases label with
  | tick | burn | enroll => exact .same rfl
  | createChat ltmEnabled =>
    simp only [step]
    split
    · exact idle
    · split
      · exact .same rfl
      · exact idle
  | setLtmEnabled enabled =>
    simp only [step, setLtm]
    split
    · split
      · exact .same rfl
      · exact idle
    · split
      · exact idle
      · split
        · exact .same rfl
        · exact .same rfl
  | acquire lease expectedEpoch purpose requireLtm =>
    simp only [step]
    split
    · split
      · exact idle
      · exact .same rfl
    · exact idle
  | renewSnapshot lease =>
    simp only [step]
    split
    · exact idle
    · split
      · exact .same rfl
      · exact idle
  | renewWrite lease =>
    simp only [step]
    split
    · exact idle
    · exact .same rfl
  | release | purge => exact .same rfl
  | barrier name ltmOnly =>
    simp only [step]
    split
    · exact idle
    · next fresh => exact commitBarrier_recorded fresh
  | drain name =>
    simp only [step]
    split
    · exact idle
    · next barrier found =>
        split
        · next checked =>
            refine .updated name barrier _ found rfl ⟨rfl, rfl, rfl, id, fun _ open_ => by cases open_⟩ ?_
            intro _ _ lease row kept
            exact drained_of_check checked.2 kept
        · exact .same rfl
  | sweep name =>
    simp only [step]
    split
    · exact idle
    · next barrier found =>
        split
        · next drained =>
            refine .updated name barrier _ found rfl ⟨rfl, rfl, rfl, id, fun _ open_ => by cases open_⟩ ?_
            intro draining
            cases drained.symm.trans draining
        · exact idle
  | compensate name =>
    simp only [step]
    split
    · exact idle
    · next barrier found =>
        have records : (state.restore barrier).barriers = state.barriers := by
          unfold restore
          split
          · rfl
          · rfl
        refine .updated name barrier { barrier with compensated := true } found ?_
          ⟨rfl, rfl, rfl, id, id⟩ fun draining moved => absurd draining moved
        exact congrArg (fun table => table.set name { barrier with compensated := true }) records
  | eraseAccount name | clearMemories name =>
    simp only [step]
    split
    · exact idle
    · next barrier found =>
        split
        · exact .updated name barrier { barrier with completed := true } found rfl
            ⟨rfl, rfl, rfl, fun _ => rfl, id⟩ fun draining moved => absurd draining moved
        · exact idle

/-- A barrier stays on record. -/
theorem continues_of_step {barrier : Barrier} (found : state.barriers.get? name = some barrier) :
    ∃ after, (state.step label).barriers.get? name = some after ∧ Continues barrier after ∧
      (after.stage ≠ .draining → barrier.stage ≠ .draining ∨
        (state.step label).Drained barrier.barrierEpoch barrier.ltmOnly) := by
  cases step_recorded state label with
  | same records => exact ⟨barrier, records ▸ found, .refl barrier, .inl⟩
  | new other made fresh records stage row untouched previous =>
    have ne : name ≠ other := by
      rintro rfl
      cases fresh.symm.trans found
    refine ⟨barrier, ?_, .refl barrier, .inl⟩
    rw [records, Dict.get?_set_ne _ _ ne]
    exact found
  | updated other before after stored records continues checked =>
    by_cases same : name = other
    · rw [same] at found
      cases stored.symm.trans found
      refine ⟨after, by rw [records, same, Dict.get?_set_self], continues, fun moved => ?_⟩
      by_cases draining : barrier.stage = .draining
      · exact .inr (checked draining moved)
      · exact .inl draining
    · refine ⟨barrier, ?_, .refl barrier, .inl⟩
      rw [records, Dict.get?_set_ne _ _ same]
      exact found

/-! ## A barrier that has drained -/

/-- The barrier is on record with its generation and scope, the row has reached
the generation and is blocked while it stays there, and past the last check no
older lease is left. -/
structure Watched (name : BarrierId) (epoch : Nat) (ltmOnly : Bool) (state : Consent) : Prop where
  past : state.Past epoch
  reached : epoch < state.sequence
  blocked : ∀ chat ∈ state.chat, chat.memoryEpoch = epoch + 1 → chat.privateDataBlocked = true
  record : ∃ barrier, state.barriers.get? name = some barrier ∧ barrier.barrierEpoch = epoch + 1 ∧
    barrier.ltmOnly = ltmOnly ∧ (barrier.stage ≠ .draining → state.Drained (epoch + 1) ltmOnly)

/-- A row at the barrier's generation is blocked: only a new generation unblocks it. -/
theorem step_blocked (reached : epoch < state.sequence)
    (blocked : ∀ chat ∈ state.chat, chat.memoryEpoch = epoch + 1 → chat.privateDataBlocked = true)
    (label : ConsentLabel) :
    epoch < (state.step label).sequence ∧ ∀ chat ∈ (state.step label).chat,
      chat.memoryEpoch = epoch + 1 → chat.privateDataBlocked = true := by
  cases step_moves state label with
  | stays grown row flags =>
    refine ⟨reached.trans_le grown, fun chat found same => ?_⟩
    rw [Option.mem_def.mp found] at row flags
    obtain ⟨earlier, before, generation⟩ := Option.map_eq_some_iff.mp row.symm
    rw [before] at flags
    exact (Option.some.inj flags).trans (blocked earlier before (generation.trans same))
  | drawn grown row =>
    refine ⟨grown ▸ reached.trans (Nat.lt_succ_self _), fun chat found same => ?_⟩
    rw [Option.mem_def.mp found] at row
    have generation : chat.memoryEpoch = state.sequence + 1 := Option.some.inj row
    omega
  | deleted grown row =>
    refine ⟨grown ▸ reached, fun chat found => ?_⟩
    rw [row] at found
    cases found

theorem step_watched {ltmOnly : Bool} (watched : state.Watched name epoch ltmOnly)
    (label : ConsentLabel) : (state.step label).Watched name epoch ltmOnly := by
  obtain ⟨barrier, found, sameEpoch, sameScope, drained⟩ := watched.record
  obtain ⟨after, stored, continues, checked⟩ := @continues_of_step state label name barrier found
  obtain ⟨reached, blocked⟩ := step_blocked watched.reached watched.blocked label
  refine ⟨step_past watched.past label, reached, blocked, after, stored,
    continues.epoch.trans sameEpoch, continues.scope.trans sameScope, fun moved => ?_⟩
  rcases checked moved with before | now
  · exact step_stays_drained watched.past (drained before)
  · rw [sameEpoch, sameScope] at now
    exact now

theorem run_watched {ltmOnly : Bool} (watched : state.Watched name epoch ltmOnly)
    (labels : List ConsentLabel) : (run step state labels).Watched name epoch ltmOnly :=
  run_keeps (Watched name epoch ltmOnly) (fun _ label watched => step_watched watched label)
    watched labels

/-- A barrier that commits is watched from then on. -/
theorem watched_of_commit {ltmOnly : Bool} (fresh : state.barriers.get? name = none) (account : state.account = true) :
    (state.step (.barrier name ltmOnly)).Watched name state.sequence ltmOnly := by
  simp only [step, fresh, commitBarrier, account, if_true]
  refine ⟨⟨Nat.le_succ _, ?_⟩, Nat.lt_succ_self _, ?_, _, Dict.get?_set_self _ _ _, rfl, rfl,
    fun moved => ?_⟩
  · rintro chat ⟨⟩
    exact Nat.lt_succ_self _
  · rintro chat ⟨⟩ -
    rfl
  · exact absurd rfl moved

theorem run_drawn {start : Consent} (settled : start.Settled) (labels : List ConsentLabel) :
    ∀ chat ∈ (run step start labels).chat,
      chat.memoryEpoch ≤ (run step start labels).sequence :=
  run_keeps (fun state : Consent => ∀ chat ∈ state.chat, chat.memoryEpoch ≤ state.sequence)
    (fun _ _ drawn => step_drawn drawn) settled.drawn labels

/-- A blocked row authorizes nothing. -/
theorem current_of_blocked (blocked : ∀ chat ∈ state.chat, chat.privateDataBlocked = true)
    (expected : Nat) (requireLtm : Bool) : state.current expected requireLtm = false := by
  unfold current
  split
  · rfl
  · next chat found =>
      simp only [blocked chat found, Bool.not_true, Bool.and_false, Bool.false_and]

end Consent

/-- From the moment a barrier yields there is no lease row of an older
generation in its scope, none can be inserted or renewed, and an older
generation opens no lease; while the row stays at the barrier's generation, no
generation does. -/
theorem yielded_barrier_is_drained (start : Consent) (settled : start.Settled)
    (first second third : List ConsentLabel) (name : BarrierId) (ltmOnly : Bool)
    (fresh : (run Consent.step start first).barriers.get? name = none)
    (account : (run Consent.step start first).account = true) (barrier : Barrier)
    (found : (run Consent.step ((run Consent.step start first).step (.barrier name ltmOnly))
      second).barriers.get? name = some barrier)
    (yielded : barrier.stage = .yielded) :
    let state := run Consent.step (run Consent.step
      ((run Consent.step start first).step (.barrier name ltmOnly)) second) third
    (∀ chat ∈ (run Consent.step start first).chat, chat.memoryEpoch < barrier.barrierEpoch) ∧
      state.Drained barrier.barrierEpoch ltmOnly ∧
      (∀ label, (state.step label).Drained barrier.barrierEpoch ltmOnly) ∧
      (∀ epoch < barrier.barrierEpoch, ∀ lease purpose requireLtm,
        state.grants lease (some epoch) purpose requireLtm = false) ∧
      (state.chat.map Chat.memoryEpoch = some barrier.barrierEpoch →
        ∀ epoch lease purpose requireLtm,
          state.grants lease (some epoch) purpose requireLtm = false) := by
  have drawn := Consent.run_drawn settled first
  have watched : Consent.Watched name _ ltmOnly _ := Consent.watched_of_commit fresh account
  have reached := Consent.run_watched watched second
  obtain ⟨record, stored, sameEpoch, sameScope, drained⟩ := reached.record
  cases stored.symm.trans found
  have empty := drained (by rw [yielded]; exact nofun)
  have stays : ∀ labels, Consent.Drained barrier.barrierEpoch ltmOnly (run Consent.step
      (run Consent.step ((run Consent.step start first).step (.barrier name ltmOnly)) second)
      labels) := by
    intro labels
    rw [sameEpoch]
    have both := run_keeps (fun state : Consent => state.Past (run Consent.step start first).sequence ∧
      state.Drained ((run Consent.step start first).sequence + 1) ltmOnly)
      (fun _ label ⟨past, drained⟩ =>
        ⟨Consent.step_past past label, Consent.step_stays_drained past drained⟩)
      ⟨reached.past, empty⟩ labels
    exact both.2
  have last := Consent.run_watched reached third
  refine ⟨?_, stays third, ?_, ?_, ?_⟩
  · intro chat held
    rw [sameEpoch]
    exact Nat.lt_succ_of_le (drawn chat held)
  · intro label
    have after := stays (third ++ [label])
    rw [run_append] at after
    exact after
  · intro epoch older lease purpose requireLtm
    apply Consent.grants_false
    apply Consent.current_of_past last.past
    rw [sameEpoch] at older
    exact Nat.le_of_lt_succ older
  · intro held epoch lease purpose requireLtm
    apply Consent.grants_false
    apply Consent.current_of_blocked
    intro chat row
    apply last.blocked chat row
    rw [Option.mem_def.mp row] at held
    exact (Option.some.inj held).trans sameEpoch

/-- An account whose chat row has generation one, long-term memory allowed. -/
def openAccount : Consent := ⟨0, 1, true, some ⟨1, false, true⟩, .empty, .empty, .empty⟩

theorem openAccount_settled : openAccount.Settled where
  drawn := by
    rintro chat ⟨⟩
    exact le_rfl
  idle name := Dict.get?_empty name

/-- A lease is taken, the barrier waits for it, and another is asked for. -/
theorem yielded_barrier_is_drained_after_release :
    Consent.Drained 2 true (run Consent.step (run Consent.step ((run Consent.step openAccount
      [.acquire 0 (some 1) "ltm:recall" true]).step (.barrier 7 true))
        [.drain 7, .renewSnapshot 0, .release 0, .drain 7, .sweep 7])
          [.acquire 1 (some 1) "ltm:recall" true]) := by
  have drained := yielded_barrier_is_drained openAccount openAccount_settled
    [.acquire 0 (some 1) "ltm:recall" true] [.drain 7, .renewSnapshot 0, .release 0, .drain 7,
      .sweep 7] [.acquire 1 (some 1) "ltm:recall" true] 7 true (by decide +kernel)
    (by decide +kernel) ⟨2, true, true, .yielded, false, false⟩ (by decide +kernel) rfl
  exact drained.2.1

end BobbyBotique.Privacy
