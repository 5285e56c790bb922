import BobbyBotique.Foundation.Dict
import BobbyBotique.Foundation.Run
import BobbyBotique.Memory.Provenance
import BobbyBotique.Privacy.Consent

/-!
# The consolidation of raw memories

The rows of one user and the runs of `consolidate_memories` over them.  A label is
one transaction or one answer from outside; between two of them anything may
happen to the memories, to the graph and to the consent.
-/

namespace BobbyBotique.Memory

open Privacy (Chat)
open Settings (Values)

attribute [local instance] lawful_letters

/-- A row of `long_term_memory`. -/
structure Row where
  content : Text
  sourceType : String
  createdAt : ℚ
  expiresAt : Option ℚ
  consolidatedAt : Option ℚ

/-- A raw memory as a run carries it. -/
structure Source where
  id : Nat
  content : Text
  sourceType : String
  createdAt : ℚ
  expiresAt : Option ℚ
  memoryEpoch : Option Nat

structure Edge where
  source : Text
  target : Text
  predicate : Text
  deriving DecidableEq

/-- The rows of `memory_derivation_sources` are pairs of a fact and a source, those of
`memory_edge_sources` pairs of a current edge and a memory. -/
structure Database where
  now : ℚ
  lastId : Nat
  chat : Option Chat
  memories : Dict Nat Row
  derivations : List (Nat × Nat)
  edgeSources : List (Edge × Nat)

def Row.isRaw (row : Row) (now : ℚ) : Bool :=
  decide (row.sourceType ≠ "consolidated") && row.consolidatedAt.isNone &&
    row.expiresAt.all fun instant => decide (now < instant)

def Row.source (row : Row) (id epoch : Nat) : Source :=
  ⟨id, row.content, row.sourceType, row.createdAt, row.expiresAt, some epoch⟩

/-- The chat row that the selections join, with the generation they ask for. -/
def Database.consents (database : Database) (epoch : Nat) : Bool :=
  database.chat.any fun chat => chat.ltmEnabled && decide (chat.memoryEpoch = epoch)

/-- The rows of `get_raw_memories_for_consolidation`, in no order that matters. -/
def rawMemories (database : Database) (epoch : Nat) : List Source :=
  if database.consents epoch then
    database.memories.items.filterMap fun item =>
      if item.2.isRaw database.now then some (item.2.source item.1 epoch) else none
  else []

/-- The selection of the preflight and of the transaction, `m.id = ANY(ids)`. -/
def lockedSources (database : Database) (epoch : Nat) (ids : List Nat) : List Source :=
  (rawMemories database epoch).filter fun source => decide (source.id ∈ ids)

/-- The four fields that are compared. -/
def Source.same (current original : Source) : Bool :=
  decide (current.content = original.content) &&
    decide (current.sourceType = original.sourceType) &&
      decide (current.createdAt = original.createdAt) &&
        decide (current.expiresAt = original.expiresAt)

/-- `_snapshot_matches`.  The ids of the rows are distinct. -/
def snapshotMatches (rawMemories currentRows : List Source) : Bool :=
  (currentRows.all fun row => rawMemories.any fun original => row.id == original.id) &&
    rawMemories.all fun original =>
      currentRows.any fun row => row.id == original.id && row.same original

/-! ## The transaction -/

/-- The least of the finite expiries. -/
def earliest : List (Option ℚ) → Option ℚ
  | [] => none
  | none :: rest => earliest rest
  | some instant :: rest =>
    match earliest rest with
    | none => some instant
    | some other => some (min instant other)

/-- What is embedded and written of a graph: a relation between two names that are
no entities is left out. -/
def Graph.validRelations (graph : Graph) : List Relation :=
  let names := (graph.entities.map fun entity => stripped entity "name" "").filter (· ≠ [])
  graph.relations.filter fun relation =>
    decide (stripped relation.fields "from" "" ∈ names) &&
      decide (stripped relation.fields "to" "" ∈ names)

def insertFact (expiry : Option ℚ) (database : Database) (fact : FactSpec) : Database :=
  { database with
    lastId := database.lastId + 1
    memories := database.memories.set (database.lastId + 1)
      ⟨fact.text, "consolidated", database.now, expiry, none⟩ }

def insertFacts (expiry : Option ℚ) (database : Database) (facts : List FactSpec) : Database :=
  facts.foldl (insertFact expiry) database

/-- The ids that the sequence gives to the facts. -/
def insertedFactIds (database : Database) (count : Nat) : List Nat :=
  List.range' (database.lastId + 1) count

def derivationRows (factIds : List Nat) (facts : List FactSpec) : List (Nat × Nat) :=
  (factIds.zip facts).flatMap fun derived => derived.2.sourceIds.map fun id => (derived.1, id)

/-- The edge of a relation.  A name that lies close to a stored node becomes its name. -/
def Relation.edge (similar : Text → Option Text) (relation : Relation) : Edge :=
  let canonical := fun name => (similar name).getD name
  ⟨canonical (stripped relation.fields "from" ""), canonical (stripped relation.fields "to" ""),
    stripped relation.fields "predicate" "related_to"⟩

/-- The rows that `write_graph` upserts for the relations. -/
def edgeRows (similar : Text → Option Text) (factIds : List Nat) (relations : List Relation) :
    List (Edge × Nat) :=
  relations.flatMap fun relation =>
    (relation.supportFactIndexes.filterMap (factIds[·]?)).map (relation.edge similar, ·)

/-- The ids that the `UPDATE` at the end returns. -/
def markedIds (database : Database) (ids : List Nat) : List Nat :=
  ids.filter fun id => (database.memories.get? id).any fun row => row.consolidatedAt.isNone

def markSources (database : Database) (ids : List Nat) : Database :=
  { database with
    memories := database.memories.adjust fun id row =>
      if id ∈ ids ∧ row.consolidatedAt = none then
        { row with consolidatedAt := some database.now } else row }

inductive Outcome where
  | stale
  | raised
  | committed (database : Database) (factIds : List Nat)

/-- The rows with the facts, their sources and the graph, before the sources are marked. -/
def writeFacts (database : Database) (expiry : Option ℚ) (graph : Graph)
    (similar : Text → Option Text) : Database :=
  let factIds := insertedFactIds database graph.facts.length
  let inserted := insertFacts expiry database graph.facts
  { inserted with
    derivations := inserted.derivations ++ derivationRows factIds graph.facts
    edgeSources := edgeRows similar factIds graph.validRelations ∪ inserted.edgeSources }

/-- The transaction.  What raises is rolled back. -/
def transact (database : Database) (epoch : Nat) (snapshot : List Source) (graph : Graph)
    (similar : Text → Option Text) : Outcome :=
  let ids := snapshot.map Source.id
  let locked := lockedSources database epoch ids
  if snapshotMatches snapshot locked = false then .stale
  else if graph.validRelations.any fun relation => (relation.edge similar).predicate.isEmpty then
    .raised
  else
    let written := writeFacts database (earliest (locked.map Source.expiresAt)) graph similar
    if markedIds written ids = ids then
      .committed (markSources written ids) (insertedFactIds database graph.facts.length)
    else .raised

/-! ## The runs -/

inductive Stage where
  | extracting
  | extracted (graph : Values)
  | current (graph : Values)
  | prepared (graph : Graph)
  | finished (facts : Nat)

structure Consolidation where
  epoch : Nat
  snapshot : List Source
  stage : Stage

/-- A run that committed, with what it consumed and what it made of it. -/
structure Commit where
  run : Nat
  sources : List Nat
  factIds : List Nat

structure World where
  database : Database
  runs : Dict Nat Consolidation
  commits : List Commit

/-- What a run does.  A transaction that `fails` raised for a reason that is not
modelled: the database, a node type or an edge weight that `write_graph` refuses. -/
inductive Act where
  | start (epoch : Option Nat) (prefetched : Option (List Source)) (leased : Bool)
  | extract (graph : Values)
  | preflight (fails : Bool)
  | prepare (embedded : Bool)
  | commit (similar : Text → Option Text) (fails : Bool)
  | abandon

inductive Label where
  | tick (instant : ℚ)
  | insert (content : Text) (sourceType : String) (createdAt : ℚ) (expiresAt : Option ℚ)
  | edit (id : Nat) (content : Text) (sourceType : String) (createdAt : ℚ) (expiresAt : Option ℚ)
  | delete (ids : List Nat)
  | consent (chat : Option Chat)
  | writeGraph (edgeSources : List (Edge × Nat))
  | consolidate (run : Nat) (act : Act)

/-- The checks of the snapshot before the model is asked. -/
def accepts (epoch : Nat) (snapshot : List Source) : Bool :=
  !snapshot.isEmpty && decide (snapshot.map Source.id).Nodup &&
    (snapshot.any fun source => source.memoryEpoch == some epoch) &&
      snapshot.all fun source => source.memoryEpoch.all (· == epoch)

/-- A run begins with the generation it was given or found, under the lease for it. -/
def start (database : Database) (epoch : Option Nat) (prefetched : Option (List Source))
    (leased : Bool) : Consolidation :=
  match epoch with
  | none => ⟨0, [], .finished 0⟩
  | some epoch =>
    let snapshot := prefetched.getD (rawMemories database epoch)
    if leased && accepts epoch snapshot then ⟨epoch, snapshot, .extracting⟩
    else ⟨epoch, [], .finished 0⟩

def Consolidation.close (run : Consolidation) (facts : Nat) : Consolidation :=
  { run with stage := .finished facts }

/-- What a run becomes by an act that writes nothing. -/
def Consolidation.advance (database : Database) (run : Consolidation) (act : Act) :
    Consolidation :=
  match act, run.stage with
  | .extract graph, .extracting => { run with stage := .extracted graph }
  | .preflight fails, .extracted graph =>
    let current := lockedSources database run.epoch (run.snapshot.map Source.id)
    if !fails && snapshotMatches run.snapshot current then
      { run with stage := .current graph }
    else run.close 0
  | .prepare embedded, .current graph =>
    match validateGraphProvenance graph (run.snapshot.map Source.id) with
    | some valid => if embedded then { run with stage := .prepared valid } else run.close 0
    | none => run.close 0
  | .abandon, _ => run.close 0
  | _, _ => run

def commit (world : World) (key : Nat) (run : Consolidation) (graph : Graph)
    (similar : Text → Option Text) (fails : Bool) : World :=
  match transact world.database run.epoch run.snapshot graph similar, fails with
  | .committed database factIds, false =>
    ⟨database, world.runs.set key (run.close factIds.length),
      world.commits ++ [⟨key, run.snapshot.map Source.id, factIds⟩]⟩
  | _, _ => { world with runs := world.runs.set key (run.close 0) }

def act (world : World) (key : Nat) (act : Act) : World :=
  match world.runs.get? key, act with
  | none, .start epoch prefetched leased =>
    { world with runs := world.runs.set key (start world.database epoch prefetched leased) }
  | none, _ => world
  | some run, .commit similar fails =>
    match run.stage with
    | .prepared graph => commit world key run graph similar fails
    | _ => world
  | some run, act => { world with runs := world.runs.set key (run.advance world.database act) }

/-- What others do to the rows. -/
def Database.change (database : Database) : Label → Database
  | .tick instant => { database with now := instant }
  | .insert content sourceType createdAt expiresAt =>
    { database with
      lastId := database.lastId + 1
      memories := database.memories.set (database.lastId + 1)
        ⟨content, sourceType, createdAt, expiresAt, none⟩ }
  | .edit id content sourceType createdAt expiresAt =>
    { database with
      memories := database.memories.modify id fun row =>
        ⟨content, sourceType, createdAt, expiresAt, row.consolidatedAt⟩ }
  | .delete ids =>
    -- The foreign keys take the rows that name a memory along with it.
    { database with
      memories := database.memories.retain fun id _ => decide (id ∉ ids)
      derivations := database.derivations.filter fun pair =>
        decide (pair.1 ∉ ids) && decide (pair.2 ∉ ids)
      edgeSources := database.edgeSources.filter fun row => decide (row.2 ∉ ids) }
  | .consent chat => { database with chat := chat }
  | .writeGraph edgeSources => { database with edgeSources := edgeSources }
  | .consolidate _ _ => database

def step (world : World) : Label → World
  | .consolidate key done => act world key done
  | label => { world with database := world.database.change label }

def World.empty : World := ⟨⟨0, 0, none, .empty, [], []⟩, .empty, []⟩

end BobbyBotique.Memory
