import BobbyBotique.Memory.Consolidation

/-!
# Consolidation is exact

What one transaction writes, what every step keeps, and that no memory is
consumed twice in a run of the system.
-/

namespace BobbyBotique.Memory

open Settings (Values)

/-- An expiry that comes no later than another; none never comes. -/
def NoLater (first second : Option ℚ) : Prop :=
  ∀ limit, second = some limit → ∃ instant, first = some instant ∧ instant ≤ limit

/-- What a committed run did to the rows, with the snapshot that the model saw. -/
structure Exact (epoch : Nat) (snapshot : List Source) (factIds : List Nat)
    (before after : Database) : Prop where
  consent : before.consents epoch = true
  sources : ∀ source ∈ snapshot, ∃ row, before.memories.get? source.id = some row ∧
    row.isRaw before.now = true ∧ (row.source source.id epoch).same source = true
  facts : ∀ id ∈ factIds, before.memories.get? id = none ∧
    ∃ row, after.memories.get? id = some row ∧ row.sourceType = "consolidated" ∧
      ∀ source ∈ snapshot, NoLater row.expiresAt source.expiresAt
  cites : ∀ id ∈ factIds, ∃ source ∈ snapshot, (id, source.id) ∈ after.derivations
  citesOnly : ∀ id ∈ factIds, ∀ cited, (id, cited) ∈ after.derivations →
    cited ∈ snapshot.map Source.id
  supports : ∀ row ∈ after.edgeSources, row ∈ before.edgeSources ∨ row.2 ∈ factIds
  supported : ∀ row ∈ before.edgeSources, row ∈ after.edgeSources
  spent : ∀ source ∈ snapshot, ∃ row, after.memories.get? source.id = some row ∧
    row.consolidatedAt = some before.now
  frame : ∀ id, id ∉ factIds → id ∉ snapshot.map Source.id →
    after.memories.get? id = before.memories.get? id

/-! ## The snapshot is compared -/

theorem mem_rawMemories {database : Database} {epoch : Nat} {source : Source}
    (member : source ∈ rawMemories database epoch) :
    database.consents epoch = true ∧ ∃ row, database.memories.get? source.id = some row ∧
      row.isRaw database.now = true ∧ source = row.source source.id epoch := by
  unfold rawMemories at member
  split at member
  · next consents =>
      obtain ⟨⟨id, row⟩, stored, found⟩ := List.mem_filterMap.mp member
      split at found
      · next raw =>
          cases found
          exact ⟨consents, row, (Dict.mem_items_iff _ _ _).mp stored, raw, rfl⟩
      · cases found
  · cases member

/-- A snapshot that matches is what the rows hold. -/
theorem snapshotMatches_rows {database : Database} {epoch : Nat} {snapshot : List Source}
    {ids : List Nat}
    (same : snapshotMatches snapshot (lockedSources database epoch ids) = true) :
    ∀ source ∈ snapshot, ∃ current ∈ lockedSources database epoch ids,
      current.id = source.id ∧ current.same source = true := by
  intro source member
  have each := List.all_eq_true.mp (Bool.and_eq_true_iff.mp same).2 source member
  obtain ⟨current, stands, fits⟩ := List.any_eq_true.mp each
  have both := Bool.and_eq_true_iff.mp fits
  exact ⟨current, stands, beq_iff_eq.mp both.1, both.2⟩

theorem same_expiresAt {current original : Source} (same : current.same original = true) :
    current.expiresAt = original.expiresAt := by
  simp only [Source.same, Bool.and_eq_true, decide_eq_true_eq] at same
  exact same.2

theorem earliest_le {expiries : List (Option ℚ)} {limit : ℚ} (member : some limit ∈ expiries) :
    ∃ instant, earliest expiries = some instant ∧ instant ≤ limit := by
  induction expiries with
  | nil => cases member
  | cons expiry rest ih =>
    rcases List.mem_cons.mp member with rfl | later
    · cases last : earliest rest with
      | none => exact ⟨limit, by rw [earliest, last], le_refl limit⟩
      | some other => exact ⟨min limit other, by rw [earliest, last], min_le_left limit other⟩
    · obtain ⟨instant, least, before⟩ := ih later
      cases expiry with
      | none => exact ⟨instant, least, before⟩
      | some first =>
        refine ⟨min first instant, by rw [earliest, least], ?_⟩
        exact (min_le_right first instant).trans before

/-! ## The facts are inserted -/

section Insertion

variable (expiry : Option ℚ)

theorem insertFacts_lastId (facts : List FactSpec) (database : Database) :
    (insertFacts expiry database facts).lastId = database.lastId + facts.length := by
  induction facts generalizing database with
  | nil => rfl
  | cons fact rest ih =>
    rw [insertFacts, List.foldl_cons, ← insertFacts, ih, List.length_cons]
    exact Nat.add_right_comm database.lastId 1 rest.length

theorem insertFacts_other (facts : List FactSpec) (database : Database) {id : Nat}
    (other : id ≤ database.lastId ∨ database.lastId + facts.length < id) :
    (insertFacts expiry database facts).memories.get? id = database.memories.get? id := by
  induction facts generalizing database with
  | nil => rfl
  | cons fact rest ih =>
    rw [List.length_cons] at other
    have apart : id ≤ database.lastId + 1 ∨ database.lastId + 1 + rest.length < id := by omega
    rw [insertFacts, List.foldl_cons, ← insertFacts, ih (insertFact expiry database fact) apart]
    exact Dict.get?_set_ne _ _ (by omega)

theorem insertFacts_new (facts : List FactSpec) (database : Database) {id : Nat}
    (new : database.lastId < id) (inside : id ≤ database.lastId + facts.length) :
    ∃ fact ∈ facts, (insertFacts expiry database facts).memories.get? id =
      some ⟨fact.text, "consolidated", database.now, expiry, none⟩ := by
  induction facts generalizing database with
  | nil => exact absurd inside (Nat.not_le_of_lt new)
  | cons fact rest ih =>
    rw [insertFacts, List.foldl_cons, ← insertFacts]
    by_cases first : id = database.lastId + 1
    · refine ⟨fact, List.mem_cons_self, ?_⟩
      rw [insertFacts_other expiry rest _ (.inl (Nat.le_of_eq first)), first]
      exact Dict.get?_set_self _ _ _
    · rw [List.length_cons] at inside
      obtain ⟨other, member, found⟩ := ih (insertFact expiry database fact)
        (show database.lastId + 1 < id by omega)
        (show id ≤ database.lastId + 1 + rest.length by omega)
      exact ⟨other, List.mem_cons_of_mem fact member, found⟩

theorem insertFacts_rest (facts : List FactSpec) (database : Database) :
    (insertFacts expiry database facts).now = database.now ∧
      (insertFacts expiry database facts).derivations = database.derivations ∧
      (insertFacts expiry database facts).edgeSources = database.edgeSources := by
  induction facts generalizing database with
  | nil => exact ⟨rfl, rfl, rfl⟩
  | cons fact rest ih => exact ih (insertFact expiry database fact)

end Insertion

theorem mem_insertedFactIds {database : Database} {count id : Nat} :
    id ∈ insertedFactIds database count ↔ database.lastId < id ∧ id ≤ database.lastId + count := by
  rw [insertedFactIds, List.mem_range'_1]
  omega

/-! ## What the facts and the edges rest on -/

theorem mem_derivationRows {factIds : List Nat} {facts : List FactSpec} {pair : Nat × Nat}
    (member : pair ∈ derivationRows factIds facts) :
    pair.1 ∈ factIds ∧ ∃ fact ∈ facts, pair.2 ∈ fact.sourceIds := by
  obtain ⟨⟨id, fact⟩, zipped, written⟩ := List.mem_flatMap.mp member
  obtain ⟨cited, known, rfl⟩ := List.mem_map.mp written
  obtain ⟨stands, listed⟩ := List.of_mem_zip zipped
  exact ⟨stands, fact, listed, known⟩

/-- Every fact has a row for every source that it names. -/
theorem derivationRows_complete {factIds : List Nat} {facts : List FactSpec}
    (long : factIds.length ≤ facts.length) {id : Nat} (member : id ∈ factIds) :
    ∃ fact ∈ facts, ∀ cited ∈ fact.sourceIds, (id, cited) ∈ derivationRows factIds facts := by
  obtain ⟨place, inside, rfl⟩ := List.mem_iff_getElem.mp member
  have within : place < facts.length := Nat.lt_of_lt_of_le inside long
  refine ⟨facts[place], List.getElem_mem within, fun cited known => ?_⟩
  have written : (factIds[place], cited) ∈
      facts[place].sourceIds.map fun id => (factIds[place], id) :=
    List.mem_map.mpr ⟨cited, known, rfl⟩
  refine List.mem_flatMap.mpr ⟨(factIds[place], facts[place]), ?_, written⟩
  exact List.mem_iff_getElem.mpr ⟨place, by simp [inside, within], by simp⟩

theorem mem_edgeRows {similar : Text → Option Text} {factIds : List Nat}
    {relations : List Relation} {row : Edge × Nat}
    (member : row ∈ edgeRows similar factIds relations) : row.2 ∈ factIds := by
  obtain ⟨relation, _, written⟩ := List.mem_flatMap.mp member
  obtain ⟨id, found, rfl⟩ := List.mem_map.mp written
  obtain ⟨index, _, placed⟩ := List.mem_filterMap.mp found
  exact List.mem_of_getElem? placed

/-! ## The sources are marked -/

theorem markSources_get? (database : Database) (ids : List Nat) (id : Nat) :
    (markSources database ids).memories.get? id = (database.memories.get? id).map fun row =>
      if id ∈ ids ∧ row.consolidatedAt = none then
        { row with consolidatedAt := some database.now } else row :=
  Dict.get?_adjust _ _ _

theorem markSources_other {database : Database} {ids : List Nat} {id : Nat} (other : id ∉ ids) :
    (markSources database ids).memories.get? id = database.memories.get? id := by
  rw [markSources_get?]
  simp [other]

theorem markSources_marks {database : Database} {ids : List Nat} {id : Nat} {row : Row}
    (found : database.memories.get? id = some row) (member : id ∈ ids)
    (raw : row.consolidatedAt = none) :
    (markSources database ids).memories.get? id =
      some { row with consolidatedAt := some database.now } := by
  rw [markSources_get?, found, Option.map_some, if_pos ⟨member, raw⟩]

/-! ## The transaction is exact -/

theorem transact_committed {database after : Database} {epoch : Nat} {snapshot : List Source}
    {graph : Graph} {similar : Text → Option Text} {factIds : List Nat}
    (done : transact database epoch snapshot graph similar = .committed after factIds) :
    ∃ expiry, expiry = earliest
        ((lockedSources database epoch (snapshot.map Source.id)).map Source.expiresAt) ∧
      snapshotMatches snapshot (lockedSources database epoch (snapshot.map Source.id)) = true ∧
      factIds = insertedFactIds database graph.facts.length ∧
      after = markSources (writeFacts database expiry graph similar) (snapshot.map Source.id) := by
  simp only [transact] at done
  split at done
  · cases done
  · next same =>
      split at done
      · cases done
      · split at done
        · cases done
          exact ⟨_, rfl, Bool.not_eq_false _ ▸ same, rfl, rfl⟩
        · cases done

/-- Every id in use comes from the sequence. -/
structure Database.Numbered (database : Database) : Prop where
  memories : ∀ id row, database.memories.get? id = some row → id ≤ database.lastId
  derivations : ∀ pair ∈ database.derivations, pair.1 ≤ database.lastId

section Transaction

variable {database : Database} (expiry : Option ℚ) (graph : Graph)
  (similar : Text → Option Text)

theorem writeFacts_lastId :
    (writeFacts database expiry graph similar).lastId =
      database.lastId + graph.facts.length :=
  insertFacts_lastId expiry graph.facts database

theorem writeFacts_other {id : Nat} (other : id ∉ insertedFactIds database graph.facts.length) :
    (writeFacts database expiry graph similar).memories.get? id = database.memories.get? id := by
  rw [mem_insertedFactIds] at other
  exact insertFacts_other expiry graph.facts database (by omega)

theorem writeFacts_new {id : Nat} (new : id ∈ insertedFactIds database graph.facts.length) :
    ∃ fact ∈ graph.facts, (writeFacts database expiry graph similar).memories.get? id =
      some ⟨fact.text, "consolidated", database.now, expiry, none⟩ :=
  insertFacts_new expiry graph.facts database (mem_insertedFactIds.mp new).1
    (mem_insertedFactIds.mp new).2

theorem writeFacts_numbered (numbered : database.Numbered) :
    (writeFacts database expiry graph similar).Numbered where
  memories := by
    intro id row found
    rw [writeFacts_lastId]
    by_cases new : id ∈ insertedFactIds database graph.facts.length
    · exact (mem_insertedFactIds.mp new).2
    · rw [writeFacts_other expiry graph similar new] at found
      exact (numbered.memories id row found).trans (Nat.le_add_right _ _)
  derivations := by
    intro pair member
    rw [writeFacts_lastId]
    rcases List.mem_append.mp member with before | written
    · rw [(insertFacts_rest expiry graph.facts database).2.1] at before
      exact (numbered.derivations pair before).trans (Nat.le_add_right _ _)
    · exact (mem_insertedFactIds.mp (mem_derivationRows written).1).2

end Transaction

theorem markSources_numbered {database : Database} (numbered : database.Numbered)
    (ids : List Nat) : (markSources database ids).Numbered where
  memories := by
    intro id row found
    rw [markSources_get?] at found
    obtain ⟨before, stored, _⟩ := Option.map_eq_some_iff.mp found
    exact numbered.memories id before stored
  derivations := numbered.derivations

theorem Database.Numbered.unused {database : Database} (numbered : database.Numbered)
    {count id : Nat} (new : id ∈ insertedFactIds database count) :
    database.memories.get? id = none := by
  cases stored : database.memories.get? id with
  | none => rfl
  | some row =>
    have used := numbered.memories id row stored
    exact absurd used (Nat.not_le_of_lt (mem_insertedFactIds.mp new).1)

theorem mem_lockedSources {database : Database} {epoch : Nat} {ids : List Nat} {source : Source}
    (member : source ∈ lockedSources database epoch ids) :
    database.consents epoch = true ∧ ∃ row, database.memories.get? source.id = some row ∧
      row.isRaw database.now = true ∧ source = row.source source.id epoch :=
  mem_rawMemories (List.mem_filter.mp member).1

theorem Row.isRaw_unspent {row : Row} {now : ℚ} (raw : row.isRaw now = true) :
    row.consolidatedAt = none := by
  simp only [Row.isRaw, Bool.and_eq_true] at raw
  exact Option.isNone_iff_eq_none.mp raw.1.2

/-- The rows that a matching snapshot names are as the snapshot has them. -/
theorem snapshot_rows {database : Database} {epoch : Nat} {snapshot : List Source}
    {ids : List Nat}
    (same : snapshotMatches snapshot (lockedSources database epoch ids) = true) :
    ∀ source ∈ snapshot, database.consents epoch = true ∧
      ∃ row, database.memories.get? source.id = some row ∧ row.isRaw database.now = true ∧
        (row.source source.id epoch).same source = true := by
  intro source member
  obtain ⟨current, locked, named, fits⟩ := snapshotMatches_rows same source member
  obtain ⟨consents, row, stored, raw, read⟩ := mem_lockedSources locked
  rw [named] at stored read
  exact ⟨consents, row, stored, raw, read ▸ fits⟩

/-- A committed transaction is exact. -/
theorem transact_exact {database after : Database} {epoch : Nat} {snapshot : List Source}
    {graph : Graph} {similar : Text → Option Text} {factIds : List Nat}
    (numbered : database.Numbered) (filled : snapshot ≠ [])
    (grounded : graph.Grounded (snapshot.map Source.id))
    (done : transact database epoch snapshot graph similar = .committed after factIds) :
    Exact epoch snapshot factIds database after := by
  obtain ⟨expiry, least, same, rfl, rfl⟩ := transact_committed done
  have rows := snapshot_rows same
  have known : ∀ source ∈ snapshot, source.id ∉ insertedFactIds database graph.facts.length := by
    intro source member new
    obtain ⟨_, row, stored, _⟩ := rows source member
    rw [numbered.unused new] at stored
    cases stored
  have apart : ∀ id ∈ insertedFactIds database graph.facts.length,
      id ∉ snapshot.map Source.id := by
    intro id new listed
    obtain ⟨source, member, rfl⟩ := List.mem_map.mp listed
    exact known source member new
  refine ⟨?_, fun source member => (rows source member).2, ?_, ?_, ?_, ?_, ?_, ?_, ?_⟩
  · obtain ⟨source, member⟩ := List.exists_mem_of_ne_nil snapshot filled
    exact (rows source member).1
  · intro id new
    obtain ⟨fact, _, stored⟩ := writeFacts_new expiry graph similar new
    refine ⟨numbered.unused new, _, (markSources_other (apart id new)).trans stored, rfl, ?_⟩
    intro source member limit expires
    obtain ⟨current, locked, _, fits⟩ := snapshotMatches_rows same source member
    have listed : some limit ∈ (lockedSources database epoch
        (snapshot.map Source.id)).map Source.expiresAt :=
      List.mem_map.mpr ⟨current, locked, (same_expiresAt fits).trans expires⟩
    obtain ⟨instant, found, before⟩ := earliest_le listed
    exact ⟨instant, least.trans found, before⟩
  · intro id new
    have long : (insertedFactIds database graph.facts.length).length ≤ graph.facts.length :=
      Nat.le_of_eq List.length_range'
    obtain ⟨fact, listed, complete⟩ := derivationRows_complete long new
    obtain ⟨filled, all⟩ := grounded.facts fact listed
    obtain ⟨cited, names⟩ := List.exists_mem_of_ne_nil fact.sourceIds filled
    obtain ⟨source, member, rfl⟩ := List.mem_map.mp (all cited names)
    exact ⟨source, member, List.mem_append_right _ (complete source.id names)⟩
  · intro id new cited written
    rcases List.mem_append.mp written with before | row
    · rw [(insertFacts_rest expiry graph.facts database).2.1] at before
      have old := numbered.derivations _ before
      exact absurd old (Nat.not_le_of_lt (mem_insertedFactIds.mp new).1)
    · obtain ⟨_, fact, listed, names⟩ := mem_derivationRows row
      exact (grounded.facts fact listed).2 cited names
  · intro row written
    rcases List.mem_union_iff.mp written with added | before
    · exact .inr (mem_edgeRows added)
    · rw [(insertFacts_rest expiry graph.facts database).2.2] at before
      exact .inl before
  · intro row before
    refine List.mem_union_iff.mpr (.inr ?_)
    rw [(insertFacts_rest expiry graph.facts database).2.2]
    exact before
  · intro source member
    obtain ⟨_, row, stored, raw, _⟩ := rows source member
    rw [← writeFacts_other expiry graph similar (known source member)] at stored
    have listed : source.id ∈ snapshot.map Source.id := List.mem_map.mpr ⟨source, member, rfl⟩
    refine ⟨_, markSources_marks stored listed (Row.isRaw_unspent raw), ?_⟩
    exact congrArg some (insertFacts_rest expiry graph.facts database).1
  · intro id unmade unnamed
    rw [markSources_other unnamed, writeFacts_other expiry graph similar unmade]

/-! ## What every step keeps -/

/-- No row is taken back from those that consumed it: a row that is found later is
new, or it was there and is as consumed as it was. -/
structure Database.Leads (before after : Database) : Prop where
  lastId : before.lastId ≤ after.lastId
  rows : ∀ id row, after.memories.get? id = some row → before.lastId < id ∧ id ≤ after.lastId ∨
      ∃ old, before.memories.get? id = some old ∧
        (old.consolidatedAt ≠ none → row.consolidatedAt ≠ none)

/-- These memories were consumed: what is left of them is marked. -/
def Database.Spent (database : Database) (ids : List Nat) : Prop :=
  ∀ id ∈ ids, id ≤ database.lastId ∧
    ∀ row, database.memories.get? id = some row → row.consolidatedAt ≠ none

theorem Database.Leads.spent {before after : Database} (leads : before.Leads after)
    {ids : List Nat} (spent : before.Spent ids) : after.Spent ids := by
  intro id member
  obtain ⟨old, marked⟩ := spent id member
  refine ⟨old.trans leads.lastId, fun row found => ?_⟩
  rcases leads.rows id row found with ⟨new, _⟩ | ⟨earlier, stored, keeps⟩
  · exact absurd old (Nat.not_le_of_lt new)
  · exact keeps (marked earlier stored)

theorem Database.Leads.numbered {before after : Database} (leads : before.Leads after)
    (numbered : before.Numbered) :
    ∀ id row, after.memories.get? id = some row → id ≤ after.lastId := by
  intro id row found
  rcases leads.rows id row found with ⟨_, inside⟩ | ⟨old, stored, _⟩
  · exact inside
  · exact (numbered.memories id old stored).trans leads.lastId

theorem Database.Leads.of_kept {before after : Database} (same : after.lastId = before.lastId)
    (rows : ∀ id row, after.memories.get? id = some row → before.memories.get? id = some row) :
    before.Leads after where
  lastId := Nat.le_of_eq same.symm
  rows id row found := .inr ⟨row, rows id row found, fun marked => marked⟩

theorem change_leads (database : Database) (label : Label) :
    database.Leads (database.change label) := by
  cases label with
  | tick | consent | writeGraph | consolidate => exact .of_kept rfl fun _ _ found => found
  | insert content sourceType createdAt expiresAt =>
    refine ⟨Nat.le_succ _, fun id row found => ?_⟩
    by_cases new : id = database.lastId + 1
    · exact .inl ⟨by omega, Nat.le_of_eq new⟩
    · rw [Database.change, Dict.get?_set_ne _ _ new] at found
      exact .inr ⟨row, found, fun marked => marked⟩
  | edit id content sourceType createdAt expiresAt =>
    refine ⟨Nat.le_refl _, fun other row found => .inr ?_⟩
    rw [Database.change, Dict.get?_modify] at found
    split at found
    · obtain ⟨old, stored, rfl⟩ := Option.map_eq_some_iff.mp found
      exact ⟨old, stored, fun marked => marked⟩
    · exact ⟨row, found, fun marked => marked⟩
  | delete ids =>
    refine .of_kept rfl fun id row found => ?_
    exact ((Dict.get?_retain_eq_some _ _ _ _).mp found).1

theorem change_numbered {database : Database} (numbered : database.Numbered) (label : Label) :
    (database.change label).Numbered where
  memories := (change_leads database label).numbered numbered
  derivations := by
    intro pair member
    refine (numbered.derivations pair ?_).trans (change_leads database label).lastId
    cases label with
    | delete ids => exact List.mem_of_mem_filter member
    | tick | insert | edit | consent | writeGraph | consolidate => exact member

theorem commit_leads (database : Database) (expiry : Option ℚ) (graph : Graph)
    (similar : Text → Option Text) (ids : List Nat) :
    database.Leads (markSources (writeFacts database expiry graph similar) ids) where
  lastId := by
    rw [markSources, writeFacts_lastId]
    exact Nat.le_add_right _ _
  rows := by
    intro id row found
    rw [markSources_get?] at found
    obtain ⟨written, stored, rfl⟩ := Option.map_eq_some_iff.mp found
    by_cases new : id ∈ insertedFactIds database graph.facts.length
    · left
      rw [markSources, writeFacts_lastId]
      exact mem_insertedFactIds.mp new
    · rw [writeFacts_other expiry graph similar new] at stored
      refine .inr ⟨written, stored, fun marked => ?_⟩
      rw [if_neg fun both => marked both.2]
      exact marked

/-! ## No memory is consumed twice -/

def World.consumed (world : World) : List Nat := world.commits.flatMap Commit.sources

/-- A run that goes on has a snapshot of distinct memories, and what it prepared
rests on that snapshot. -/
structure Consolidation.Ready (run : Consolidation) : Prop where
  snapshot : (∀ facts, run.stage ≠ .finished facts) →
    run.snapshot ≠ [] ∧ (run.snapshot.map Source.id).Nodup
  grounded : ∀ graph, run.stage = .prepared graph → graph.Grounded (run.snapshot.map Source.id)

structure World.Sound (world : World) : Prop where
  numbered : world.database.Numbered
  runs : ∀ key run, world.runs.get? key = some run → run.Ready
  spent : world.database.Spent world.consumed
  once : world.consumed.Nodup

theorem Consolidation.close_ready (run : Consolidation) (facts : Nat) :
    (run.close facts).Ready where
  snapshot going := absurd rfl (going facts)
  grounded _ prepared := nomatch prepared

theorem start_ready (database : Database) (epoch : Option Nat)
    (prefetched : Option (List Source)) (leased : Bool) :
    (start database epoch prefetched leased).Ready := by
  cases epoch with
  | none => exact Consolidation.close_ready ⟨0, [], .finished 0⟩ 0
  | some epoch =>
    simp only [start]
    split
    · next accepted =>
        simp only [accepts, Bool.and_eq_true, decide_eq_true_eq, Bool.not_eq_true'] at accepted
        have filled := List.isEmpty_eq_false_iff.mp accepted.2.1.1.1
        exact ⟨fun _ => ⟨filled, accepted.2.1.1.2⟩, fun _ prepared => nomatch prepared⟩
    · exact Consolidation.close_ready ⟨epoch, [], .finished 0⟩ 0

theorem Consolidation.Ready.move {run : Consolidation} (ready : run.Ready)
    (going : ∀ facts, run.stage ≠ .finished facts) {stage : Stage}
    (grounded : ∀ graph, stage = .prepared graph → graph.Grounded (run.snapshot.map Source.id)) :
    ({ run with stage := stage } : Consolidation).Ready where
  snapshot _ := ready.snapshot going
  grounded := grounded

theorem Consolidation.Ready.advance {run : Consolidation} (ready : run.Ready)
    (database : Database) (act : Act) : (run.advance database act).Ready := by
  unfold Consolidation.advance
  split
  · next graph stage => exact ready.move (by simp [stage]) fun _ prepared => nomatch prepared
  · next fails graph stage =>
      dsimp only
      split
      · exact ready.move (by simp [stage]) fun _ prepared => nomatch prepared
      · exact run.close_ready 0
  · next embedded graph stage =>
      split
      · next valid accepted =>
          split
          · refine ready.move (by simp [stage]) fun graph prepared => ?_
            cases prepared
            exact validateGraphProvenance_grounded accepted
          · exact run.close_ready 0
      · exact run.close_ready 0
  · exact run.close_ready 0
  · exact ready

theorem World.Sound.setRun {world : World} (sound : world.Sound) (key : Nat) {run : Consolidation}
    (ready : run.Ready) : ({ world with runs := world.runs.set key run } : World).Sound where
  numbered := sound.numbered
  runs := by
    intro other found stored
    rw [Dict.get?_set] at stored
    split at stored
    · cases stored
      exact ready
    · exact sound.runs other found stored
  spent := sound.spent
  once := sound.once

/-- What one act of a run does: it leaves the rows alone, or it commits exactly. -/
def Consolidates (key : Nat) (world after : World) : Prop :=
  after.database = world.database ∧ after.commits = world.commits ∨
    ∃ run factIds, world.runs.get? key = some run ∧
      after.commits = world.commits ++ [⟨key, run.snapshot.map Source.id, factIds⟩] ∧
      Exact run.epoch run.snapshot factIds world.database after.database

theorem consumed_append (commits : List Commit) (commit : Commit) :
    (commits ++ [commit]).flatMap Commit.sources =
      commits.flatMap Commit.sources ++ commit.sources := by
  rw [List.flatMap_append, List.flatMap_singleton]

/-- The memories of a run that commits were consumed by no run before. -/
theorem World.Sound.apart {world : World} (sound : world.Sound) {epoch : Nat}
    {snapshot : List Source} {factIds : List Nat} {after : Database}
    (exact : Exact epoch snapshot factIds world.database after) :
    List.Disjoint world.consumed (snapshot.map Source.id) := by
  intro id consumed listed
  obtain ⟨source, member, rfl⟩ := List.mem_map.mp listed
  obtain ⟨row, stored, raw, _⟩ := exact.sources source member
  exact (sound.spent source.id consumed).2 row stored (Row.isRaw_unspent raw)

theorem commit_spec {world : World} (sound : world.Sound) {key : Nat} {run : Consolidation}
    (known : world.runs.get? key = some run) {graph : Graph} (stage : run.stage = .prepared graph)
    (similar : Text → Option Text) (fails : Bool) :
    (commit world key run graph similar fails).Sound ∧
      Consolidates key world (commit world key run graph similar fails) := by
  have ready := sound.runs key run known
  obtain ⟨filled, distinct⟩ := ready.snapshot (by simp [stage])
  unfold commit
  split
  · next after factIds done =>
      have exact := transact_exact sound.numbered filled (ready.grounded graph stage) done
      have closed := sound.setRun key (run.close_ready factIds.length)
      refine ⟨⟨?_, closed.runs, ?_, ?_⟩, .inr ⟨run, factIds, known, rfl, exact⟩⟩
      · obtain ⟨expiry, _, _, rfl, rfl⟩ := transact_committed done
        exact markSources_numbered (writeFacts_numbered expiry graph similar sound.numbered) _
      · obtain ⟨expiry, _, _, rfl, rfl⟩ := transact_committed done
        have leads := commit_leads world.database expiry graph similar
          (run.snapshot.map Source.id)
        intro id member
        rw [World.consumed, consumed_append] at member
        rcases List.mem_append.mp member with before | now
        · exact leads.spent sound.spent id before
        · obtain ⟨source, listed, rfl⟩ := List.mem_map.mp now
          obtain ⟨row, stored, _⟩ := exact.sources source listed
          refine ⟨(sound.numbered.memories _ row stored).trans leads.lastId, ?_⟩
          intro row found
          obtain ⟨marked, same, instant⟩ := exact.spent source listed
          rw [found] at same
          cases same
          rw [instant]
          exact Option.some_ne_none _
      · rw [World.consumed, consumed_append]
        exact sound.once.append distinct (sound.apart exact)
  · exact ⟨sound.setRun key (run.close_ready 0), .inl ⟨rfl, rfl⟩⟩

theorem act_spec {world : World} (sound : world.Sound) (key : Nat) (done : Act) :
    (act world key done).Sound ∧ Consolidates key world (act world key done) := by
  have still : Consolidates key world world := .inl ⟨rfl, rfl⟩
  unfold act
  split
  · next epoch prefetched leased _ =>
      have ready := start_ready world.database epoch prefetched leased
      exact ⟨sound.setRun key ready, .inl ⟨rfl, rfl⟩⟩
  · exact ⟨sound, still⟩
  · next run similar fails known =>
      split
      · next graph stage => exact commit_spec sound known stage similar fails
      · exact ⟨sound, still⟩
  · next _ run known _ =>
      have ready := fun act => (sound.runs key run known).advance world.database act
      exact ⟨sound.setRun key (ready _), .inl ⟨rfl, rfl⟩⟩

theorem World.Sound.step {world : World} (sound : world.Sound) (label : Label) :
    (step world label).Sound := by
  have others : ({ world with database := world.database.change label } : World).Sound :=
    ⟨change_numbered sound.numbered label, sound.runs,
      (change_leads world.database label).spent sound.spent, sound.once⟩
  cases label with
  | consolidate key done => exact (act_spec sound key done).1
  | tick | insert | edit | delete | consent | writeGraph => exact others

theorem empty_sound : World.empty.Sound where
  numbered := ⟨nofun, nofun⟩
  runs := nofun
  spent := nofun
  once := List.nodup_nil

/-! ## A run keeps its snapshot -/

/-- The run is known by the snapshot that its model was shown. -/
def World.Carries (world : World) (key epoch : Nat) (snapshot : List Source) : Prop :=
  ∃ run, world.runs.get? key = some run ∧ run.epoch = epoch ∧ run.snapshot = snapshot

theorem Consolidation.advance_keeps (database : Database) (run : Consolidation) (act : Act) :
    (run.advance database act).epoch = run.epoch ∧
      (run.advance database act).snapshot = run.snapshot := by
  unfold Consolidation.advance
  split
  · exact ⟨rfl, rfl⟩
  · dsimp only
    split <;> exact ⟨rfl, rfl⟩
  · split
    · split <;> exact ⟨rfl, rfl⟩
    · exact ⟨rfl, rfl⟩
  · exact ⟨rfl, rfl⟩
  · exact ⟨rfl, rfl⟩

theorem World.Carries.set {world : World} {key epoch : Nat} {snapshot : List Source}
    (carries : world.Carries key epoch snapshot) (other : Nat) {run : Consolidation}
    (keeps : other = key → run.epoch = epoch ∧ run.snapshot = snapshot) (database : Database)
    (commits : List Commit) :
    (⟨database, world.runs.set other run, commits⟩ : World).Carries key epoch snapshot := by
  by_cases own : other = key
  · subst own
    exact ⟨run, Dict.get?_set_self _ _ _, keeps rfl⟩
  · obtain ⟨known, stored, same⟩ := carries
    exact ⟨known, (Dict.get?_set_ne _ _ (Ne.symm own)).trans stored, same⟩

theorem World.Carries.act {world : World} {key epoch : Nat} {snapshot : List Source}
    (carries : world.Carries key epoch snapshot) (other : Nat) (done : Act) :
    (act world other done).Carries key epoch snapshot := by
  have own : ∀ run, world.runs.get? other = some run → other = key →
      run.epoch = epoch ∧ run.snapshot = snapshot := by
    intro run stored same
    obtain ⟨known, found, kept⟩ := carries
    rw [same, found] at stored
    cases stored
    exact kept
  unfold Memory.act
  split
  · next fresh =>
      refine carries.set other (fun same => ?_) _ _
      obtain ⟨known, found, _⟩ := carries
      rw [same, found] at fresh
      cases fresh
  · exact carries
  · next run similar fails known =>
      split
      · have closed : ∀ facts, other = key →
            (run.close facts).epoch = epoch ∧ (run.close facts).snapshot = snapshot :=
          fun _ => own run known
        unfold commit
        split
        · exact carries.set other (closed _) _ _
        · exact carries.set other (closed _) _ _
      · exact carries
  · next _ run known _ =>
      refine carries.set other (fun same => ?_) _ _
      obtain ⟨epochs, snapshots⟩ := run.advance_keeps world.database _
      exact ⟨epochs.trans (own run known same).1, snapshots.trans (own run known same).2⟩

theorem World.Carries.step {world : World} {key epoch : Nat} {snapshot : List Source}
    (carries : world.Carries key epoch snapshot) (label : Label) :
    (step world label).Carries key epoch snapshot := by
  cases label with
  | consolidate other done => exact carries.act other done
  | tick | insert | edit | delete | consent | writeGraph => exact carries

/-- Whatever happens between its steps, a run keeps the snapshot that it began with, it
leaves the rows alone or commits exactly, and over all runs every memory is consumed
at most once. -/
theorem consolidation_is_exact (labels : List Label) :
    let world := Run.run step World.empty labels
    (∀ key epoch snapshot, world.Carries key epoch snapshot →
        ∀ later, (Run.run step world later).Carries key epoch snapshot) ∧
      (∀ key done, Consolidates key world (step world (.consolidate key done))) ∧
      world.consumed.Nodup := by
  have sound := Run.run_keeps World.Sound (fun _ label held => held.step label) empty_sound labels
  refine ⟨fun key epoch snapshot carries later => ?_, fun key done => (act_spec sound key done).2,
    sound.once⟩
  exact Run.run_keeps (fun world : World => world.Carries key epoch snapshot)
    (fun _ label held => held.step label) carries later

/-! ## An edge keeps the support it had -/

def World.madeFacts (world : World) : List Nat := world.commits.flatMap Commit.factIds

/-- An edge that rests on a fact of a run rests on facts of runs alone. -/
def World.EdgesOnFacts (world : World) : Prop :=
  ∀ edge fact memory, (edge, fact) ∈ world.database.edgeSources → fact ∈ world.madeFacts →
    (edge, memory) ∈ world.database.edgeSources → memory ∈ world.madeFacts

def likesTea : Edge := ⟨"user".toList, "tea".toList, "likes".toList⟩

def teaGraph : Values :=
  [("facts", .arr [.obj [("text", .str "Likes tea."), ("source_ids", .arr [.int 1])]]),
    ("entities", .arr [.obj [("name", .str "user")], .obj [("name", .str "tea")]]),
    ("relations", .arr [.obj [("from", .str "user"), ("to", .str "tea"),
      ("predicate", .str "likes"), ("support_fact_indexes", .arr [.int 0])]])]

/-- The extraction of a raw memory writes an edge, and the consolidation of that memory
writes it again. -/
def teaRun : List Label :=
  [.insert "I like tea.".toList "chat" 0 none, .consent (some ⟨1, false, true⟩),
    .writeGraph [(likesTea, 1)], .consolidate 0 (.start (some 1) none true),
    .consolidate 0 (.extract teaGraph), .consolidate 0 (.preflight false),
    .consolidate 0 (.prepare true), .consolidate 0 (.commit (fun _ => none) false)]

theorem edge_keeps_raw_support :
    ¬ ∀ labels, (Run.run step World.empty labels).EdgesOnFacts := by
  intro all
  have onFacts := all teaRun likesTea 2 1 (by decide +kernel) (by decide +kernel)
    (by decide +kernel)
  revert onFacts
  decide +kernel

end BobbyBotique.Memory
