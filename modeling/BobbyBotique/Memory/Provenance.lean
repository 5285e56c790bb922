import BobbyBotique.Foundation.Text
import BobbyBotique.Settings.Document

/-!
# What the model says of its sources

The graph that the model returns is any JSON object.  `_validate_graph_provenance`
accepts it where every fact names snapshot memories and every relation names
facts by their places.
-/

namespace BobbyBotique.Memory

open Settings (Json Values get)

abbrev Text := List Char

def maxPersonaFacts : Nat := 8

structure FactSpec where
  text : Text
  sourceIds : List Nat

/-- A relation of the model with its support read. -/
structure Relation where
  fields : Values
  supportFactIndexes : List Nat

structure Graph where
  facts : List FactSpec
  entities : List Values
  relations : List Relation

/-- `fields.get(name, default)`, where it is a text. -/
def textOr (fields : Values) (name default : String) : Option String :=
  match get fields name with
  | none => some default
  | some (.str text) => some text
  | some _ => none

/-- `fields.get(name, default).strip()`. -/
def stripped (fields : Values) (name default : String) : Text :=
  strip ((textOr fields name default).getD default).toList

/-- Read every item of a list, or none of it. -/
def readAll {A : Type} (read : Json → Option A) : List Json → Option (List A)
  | [] => some []
  | item :: rest =>
    match read item, readAll read rest with
    | some first, some others => some (first :: others)
    | _, _ => none

/-- A source id of a fact: an integer, no bool, and one of the snapshot. -/
def readSource (rawIds : List Nat) : Json → Option Nat
  | .int (.ofNat id) => if id ∈ rawIds then some id else none
  | _ => none

/-- A place among the facts. -/
def readIndex (count : Nat) : Json → Option Nat
  | .int (.ofNat index) => if index < count then some index else none
  | _ => none

/-- A list that is not empty, read item by item; `dict.fromkeys` drops repetitions. -/
def readCited (read : Json → Option Nat) : Option Json → Option (List Nat)
  | some (.arr (item :: rest)) => (readAll read (item :: rest)).map List.eraseDups
  | _ => none

def readFact (rawIds : List Nat) : Json → Option FactSpec
  | .obj fields =>
    match get fields "text", readCited (readSource rawIds) (get fields "source_ids") with
    | some (.str text), some sourceIds =>
      if strip text.toList = [] then none else some ⟨strip text.toList, sourceIds⟩
    | _, _ => none
  | _ => none

def readEntity : Json → Option Values
  | .obj fields => if (textOr fields "name" "").isSome then some fields else none
  | _ => none

def readRelation (count : Nat) : Json → Option Relation
  | .obj fields =>
    if ["from", "to", "predicate"].all fun name => (textOr fields name "").isSome then
      (readCited (readIndex count) (get fields "support_fact_indexes")).map (⟨fields, ·⟩)
    else none
  | _ => none

/-- `_validate_graph_provenance`. -/
def validateGraphProvenance (graph : Values) (rawIds : List Nat) : Option Graph :=
  match get graph "facts", get graph "entities", get graph "relations" with
  | some (.arr rawFacts), some (.arr entities), some (.arr relations) =>
    if rawFacts = [] ∨ maxPersonaFacts < rawFacts.length then none
    else
      match readAll readEntity entities, readAll (readFact rawIds) rawFacts,
          readAll (readRelation rawFacts.length) relations with
      | some entities, some facts, some relations => some ⟨facts, entities, relations⟩
      | _, _, _ => none
  | _, _, _ => none

/-! ## What is accepted -/

/-- Every source is one of the snapshot, and there is one. -/
def FactSpec.Grounded (rawIds : List Nat) (fact : FactSpec) : Prop :=
  fact.sourceIds ≠ [] ∧ ∀ id ∈ fact.sourceIds, id ∈ rawIds

/-- Every place is one of a fact, and there is one. -/
def Relation.Supported (count : Nat) (relation : Relation) : Prop :=
  relation.supportFactIndexes ≠ [] ∧ ∀ index ∈ relation.supportFactIndexes, index < count

structure Graph.Grounded (rawIds : List Nat) (graph : Graph) : Prop where
  facts : ∀ fact ∈ graph.facts, fact.Grounded rawIds
  relations : ∀ relation ∈ graph.relations, relation.Supported graph.facts.length

theorem readAll_cons {A : Type} {read : Json → Option A} {item : Json} {rest : List Json}
    {found : List A} (accepted : readAll read (item :: rest) = some found) :
    ∃ first others, read item = some first ∧ readAll read rest = some others ∧
      found = first :: others := by
  simp only [readAll] at accepted
  split at accepted
  · next first others head tail =>
      exact ⟨first, others, head, tail, (Option.some.inj accepted).symm⟩
  · cases accepted

/-- What holds of every item that is read holds of all that are read. -/
theorem readAll_spec {A : Type} {read : Json → Option A} {good : A → Prop}
    (spec : ∀ item result, read item = some result → good result) {items : List Json}
    {found : List A} (accepted : readAll read items = some found) :
    found.length = items.length ∧ ∀ result ∈ found, good result := by
  induction items generalizing found with
  | nil =>
    cases accepted
    exact ⟨rfl, nofun⟩
  | cons item rest ih =>
    obtain ⟨first, others, head, tail, rfl⟩ := readAll_cons accepted
    obtain ⟨long, all⟩ := ih tail
    refine ⟨by rw [List.length_cons, List.length_cons, long], ?_⟩
    exact List.forall_mem_cons.mpr ⟨spec item first head, all⟩

theorem readSource_mem {rawIds : List Nat} {value : Json} {id : Nat}
    (accepted : readSource rawIds value = some id) : id ∈ rawIds := by
  unfold readSource at accepted
  split at accepted
  · split at accepted
    · next known => exact Option.some.inj accepted ▸ known
    · cases accepted
  · cases accepted

theorem readIndex_lt {count : Nat} {value : Json} {index : Nat}
    (accepted : readIndex count value = some index) : index < count := by
  unfold readIndex at accepted
  split at accepted
  · split at accepted
    · next inside => exact Option.some.inj accepted ▸ inside
    · cases accepted
  · cases accepted

theorem readCited_spec {read : Json → Option Nat} {good : Nat → Prop}
    (spec : ∀ item result, read item = some result → good result) {value : Option Json}
    {cited : List Nat} (accepted : readCited read value = some cited) :
    cited ≠ [] ∧ ∀ result ∈ cited, good result := by
  unfold readCited at accepted
  split at accepted
  · next item rest =>
      obtain ⟨found, all, rfl⟩ := Option.map_eq_some_iff.mp accepted
      obtain ⟨first, others, _, _, rfl⟩ := readAll_cons all
      have kept := (readAll_spec spec all).2
      refine ⟨by simp [List.eraseDups_cons], fun result member => kept result ?_⟩
      exact List.mem_eraseDups.mp member
  · cases accepted

theorem readFact_grounded {rawIds : List Nat} {value : Json} {fact : FactSpec}
    (accepted : readFact rawIds value = some fact) : fact.Grounded rawIds := by
  unfold readFact at accepted
  split at accepted
  · split at accepted
    · next text sourceIds _ cited =>
        split at accepted
        · cases accepted
        · cases accepted
          exact readCited_spec (fun _ _ read => readSource_mem read) cited
    · cases accepted
  · cases accepted

theorem readRelation_supported {count : Nat} {value : Json} {relation : Relation}
    (accepted : readRelation count value = some relation) : relation.Supported count := by
  unfold readRelation at accepted
  split at accepted
  · split at accepted
    · obtain ⟨indexes, cited, rfl⟩ := Option.map_eq_some_iff.mp accepted
      exact readCited_spec (fun _ _ read => readIndex_lt read) cited
    · cases accepted
  · cases accepted

/-- An accepted graph rests on the snapshot alone. -/
theorem validateGraphProvenance_grounded {graph : Values} {rawIds : List Nat} {valid : Graph}
    (accepted : validateGraphProvenance graph rawIds = some valid) : valid.Grounded rawIds := by
  unfold validateGraphProvenance at accepted
  split at accepted
  · next rawFacts entities relations _ _ _ =>
      split at accepted
      · cases accepted
      · split at accepted
        · next read facts found _ readFacts readRelations =>
            cases accepted
            have known := readAll_spec (fun _ _ read => readFact_grounded read) readFacts
            refine ⟨known.2, ?_⟩
            rw [known.1]
            exact (readAll_spec (fun _ _ read => readRelation_supported read) readRelations).2
        · cases accepted
  · cases accepted

end BobbyBotique.Memory
