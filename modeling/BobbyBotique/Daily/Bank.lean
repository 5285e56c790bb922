import BobbyBotique.Foundation.Dict
import BobbyBotique.Foundation.Run
import BobbyBotique.Foundation.Text

/-!
# The question bank of the daily trivia

A day is validated against the bank that its call read before, and published in
a transaction that does not look at the bank again.  What another call publishes
in between escapes the comparison.
-/

namespace BobbyBotique.Daily

structure FactIdentity where
  subject : String
  relation : String
  answer : String
  identityHash : String
  deriving DecidableEq

structure AuthoredQuestion where
  topic : String
  question : List Char
  options : List (List Char)
  correctIndex : Int
  explanation : String
  identity : Option FactIdentity

structure BankFact where
  identity : FactIdentity
  question : List Char
  deriving DecidableEq

/-- What the code asks others about a day. -/
structure Referee where
  /-- `str.casefold`. -/
  casefold : List Char → List Char
  /-- `audit_semantic_bank` found no conflict, or was not available. -/
  auditClean : Bool
  /-- What `compare_facts` decides of facts with different hashes. -/
  similar : BankFact → BankFact → Bool

/-- `compare_facts`. -/
def compareFacts (referee : Referee) (first second : BankFact) : Bool :=
  first.identity.identityHash == second.identity.identityHash || referee.similar first second

/-- `_validate_question`, which gives the fact of a valid question. -/
def validateQuestion (referee : Referee) (question : AuthoredQuestion) : Option BankFact :=
  if strip question.question = [] then none
  else if question.options.length ≠ 4 ∨ question.options.any fun option => strip option == [] then
    none
  else if (question.options.map fun option => strip (referee.casefold option)).dedup.length ≠ 4 then
    none
  else if question.correctIndex < 0 ∨ 4 ≤ question.correctIndex then none
  else question.identity.map fun identity => ⟨identity, question.question⟩

/-- The loop of `validate_authored_day`. -/
def acceptQuestions (referee : Referee) (accepted : List BankFact) :
    List AuthoredQuestion → Bool
  | [] => true
  | question :: rest =>
    match validateQuestion referee question with
    | none => false
    | some fact =>
      accepted.all (fun existing => !compareFacts referee fact existing) &&
        acceptQuestions referee (accepted ++ [fact]) rest

/-- A day as a call of `publish_authored_day` receives it. -/
structure DayDraft where
  puzzleDate : Nat
  main : List AuthoredQuestion
  superQuestions : List AuthoredQuestion
  expectedRevision : Option Int

def DayDraft.questions (draft : DayDraft) : List AuthoredQuestion :=
  draft.main ++ draft.superQuestions

/-- `validate_authored_day` behind the audit. -/
def validateAuthoredDay (referee : Referee) (bank : List BankFact) (draft : DayDraft) : Bool :=
  referee.auditClean && draft.main.length == 5 && draft.superQuestions.length == 3 &&
    acceptQuestions referee bank draft.questions

/-- The facts of questions, in their order. -/
def factsOf (questions : List AuthoredQuestion) : List BankFact :=
  questions.filterMap fun question =>
    question.identity.map fun identity => ⟨identity, question.question⟩

def hashesOf (facts : List BankFact) : List String :=
  facts.map fun fact => fact.identity.identityHash

/-- The published revision of a day; only ready days are published here. -/
structure PublishedDay where
  revision : Nat
  facts : List BankFact
  deriving DecidableEq

/-- A call that has read the bank. -/
structure Authoring where
  draft : DayDraft
  bank : List BankFact

structure Authors where
  days : Dict Nat PublishedDay
  calls : Dict Nat Authoring

namespace Authors

def initial : Authors := ⟨.empty, .empty⟩

/-- `get_recent_bank_facts` for 90 days without the day itself. -/
def recentBankFacts (authors : Authors) (puzzleDate : Nat) : List BankFact :=
  (authors.days.items.filter fun (date, _) =>
    decide (puzzleDate ≤ date + 90 ∧ date ≠ puzzleDate)).flatMap fun (_, day) => day.facts

inductive Label where
  | read (call : Nat) (draft : DayDraft)
  | publish (call : Nat) (referee : Referee)
  | crash (call : Nat)

/-- The revision of a date, zero before it is published. -/
def currentRevision (authors : Authors) (puzzleDate : Nat) : Nat :=
  match authors.days.get? puzzleDate with
  | some day => day.revision
  | none => 0

/-- `publish_revision` of a validated day; nothing when the revision is another one. -/
def publishRevision (authors : Authors) (draft : DayDraft) : Option PublishedDay :=
  let current := authors.currentRevision draft.puzzleDate
  if draft.expectedRevision.any fun expected => (current : Int) != expected then none
  else some ⟨current + 1, factsOf draft.questions⟩

/-- The day that a call stores, and nothing when it raises. -/
def published (authors : Authors) (call : Authoring) (referee : Referee) : Option PublishedDay :=
  if validateAuthoredDay referee call.bank call.draft then authors.publishRevision call.draft
  else none

def step (authors : Authors) : Label → Authors
  | .read id draft =>
    { authors with
      calls := authors.calls.set id ⟨draft, authors.recentBankFacts draft.puzzleDate⟩ }
  | .publish id referee =>
    match authors.calls.get? id with
    | none => authors
    | some call =>
      match authors.published call referee with
      | none => { authors with calls := authors.calls.del id }
      | some day => ⟨authors.days.set call.draft.puzzleDate day, authors.calls.del id⟩
  | .crash id => { authors with calls := authors.calls.del id }

/-! ## No fact twice -/

def Near (date other : Nat) : Prop := date ≤ other + 90 ∧ other ≤ date + 90

/-- Facts of days at most 90 days apart have different hashes, and so have those of one day. -/
structure Unrepeated (authors : Authors) : Prop where
  across : ∀ date other day rival, authors.days.get? date = some day →
    authors.days.get? other = some rival → date ≠ other → Near date other →
    List.Disjoint (hashesOf day.facts) (hashesOf rival.facts)
  within : ∀ date day, authors.days.get? date = some day → (hashesOf day.facts).Nodup

/-- No fact that was published since the call read the bank has a hash of its day. -/
def Current (authors : Authors) : Label → Prop
  | .publish id referee =>
    match authors.calls.get? id with
    | none => True
    | some call =>
      authors.published call referee ≠ none →
        ∀ other rival, authors.days.get? other = some rival → other ≠ call.draft.puzzleDate →
          Near call.draft.puzzleDate other → ∀ fact ∈ rival.facts, fact ∉ call.bank →
            fact.identity.identityHash ∉ hashesOf (factsOf call.draft.questions)
  | _ => True

theorem unrepeated_initial : initial.Unrepeated := by
  constructor
  · intro date other day rival found
    cases found
  · intro date day found
    cases found

theorem validateQuestion_identity {referee : Referee} {question : AuthoredQuestion}
    {fact : BankFact} (valid : validateQuestion referee question = some fact) :
    question.identity.map (fun identity => ⟨identity, question.question⟩) = some fact := by
  unfold validateQuestion at valid
  split at valid
  · cases valid
  · split at valid
    · cases valid
    · split at valid
      · cases valid
      · split at valid
        · cases valid
        · exact valid

/-- Accepted questions differ from the bank and from each other. -/
theorem acceptQuestions_spec {referee : Referee} {accepted : List BankFact}
    {questions : List AuthoredQuestion}
    (passed : acceptQuestions referee accepted questions = true) :
    (hashesOf (factsOf questions)).Nodup ∧
      List.Disjoint (hashesOf accepted) (hashesOf (factsOf questions)) := by
  induction questions generalizing accepted with
  | nil => exact ⟨List.nodup_nil, List.disjoint_nil_right _⟩
  | cons question rest ih =>
    rw [acceptQuestions] at passed
    split at passed
    · cases passed
    · next fact valid =>
        obtain ⟨differs, later⟩ := Bool.and_eq_true_iff.mp passed
        obtain ⟨distinct, apart⟩ := ih later
        have split : hashesOf (factsOf (question :: rest)) =
            fact.identity.identityHash :: hashesOf (factsOf rest) := by
          rw [factsOf, List.filterMap_cons, validateQuestion_identity valid]
          rfl
        have same : hashesOf (accepted ++ [fact]) =
            hashesOf accepted ++ [fact.identity.identityHash] := List.map_append
        rw [same] at apart
        obtain ⟨early, last⟩ := List.disjoint_append_left.mp apart
        rw [split]
        constructor
        · exact List.nodup_cons.mpr ⟨List.disjoint_left.mp last List.mem_cons_self, distinct⟩
        · refine List.disjoint_cons_right.mpr ⟨?_, early⟩
          intro member
          obtain ⟨existing, inside, hash⟩ := List.mem_map.mp member
          have differ := List.all_eq_true.mp differs existing inside
          simp [compareFacts, hash] at differ

theorem published_spec {authors : Authors} {call : Authoring} {referee : Referee}
    {day : PublishedDay} (stored : authors.published call referee = some day) :
    day.facts = factsOf call.draft.questions ∧ (hashesOf (factsOf call.draft.questions)).Nodup ∧
      List.Disjoint (hashesOf call.bank) (hashesOf (factsOf call.draft.questions)) := by
  unfold published at stored
  split at stored
  · next valid =>
      have facts : day.facts = factsOf call.draft.questions := by
        dsimp only [publishRevision] at stored
        split at stored
        · cases stored
        · cases stored
          rfl
      exact ⟨facts, acceptQuestions_spec (Bool.and_eq_true_iff.mp valid).2⟩
  · cases stored

/-- A step keeps the days apart exactly when no new fact escaped the comparison. -/
theorem Unrepeated.step_iff {authors : Authors} (unrepeated : authors.Unrepeated)
    (label : Label) : (authors.step label).Unrepeated ↔ Current authors label := by
  cases label with
  | read | crash => exact ⟨fun _ => trivial, fun _ => ⟨unrepeated.across, unrepeated.within⟩⟩
  | publish id referee =>
    dsimp only [step, Current]
    cases called : authors.calls.get? id with
    | none => exact ⟨fun _ => trivial, fun _ => unrepeated⟩
    | some call =>
      dsimp only
      cases stored : authors.published call referee with
      | none =>
        refine ⟨fun _ never => absurd rfl never, fun _ => ?_⟩
        exact ⟨unrepeated.across, unrepeated.within⟩
      | some day =>
        obtain ⟨facts, distinct, apart⟩ := published_spec stored
        dsimp only
        constructor
        · intro after _ other rival found ne near fact member _ repeated
          have here : (authors.days.set call.draft.puzzleDate day).get?
              call.draft.puzzleDate = some day := Dict.get?_set_self _ _ _
          have there : (authors.days.set call.draft.puzzleDate day).get? other =
              some rival := (Dict.get?_set_ne _ _ ne).trans found
          have disjoint := after.across _ _ day rival here there ne.symm near
          rw [facts] at disjoint
          exact disjoint repeated (List.mem_map_of_mem member)
        · intro current
          have clear : ∀ other rival, authors.days.get? other = some rival →
              other ≠ call.draft.puzzleDate → Near call.draft.puzzleDate other →
              List.Disjoint (hashesOf day.facts) (hashesOf rival.facts) := by
            intro other rival found ne near hash mine theirs
            rw [facts] at mine
            obtain ⟨fact, member, rfl⟩ := List.mem_map.mp theirs
            by_cases known : fact ∈ call.bank
            · exact apart (List.mem_map_of_mem known) mine
            · exact current (Option.some_ne_none day) other rival found ne near fact member
                known mine
          constructor
          · intro date other first second found met ne near
            rw [Dict.get?_set] at found met
            split at found <;> split at met
            · next here there => exact absurd (here.trans there.symm) ne
            · next here there =>
                cases found
                exact clear other second met there (here ▸ near)
            · next here there =>
                cases met
                exact (clear date first found here ⟨there ▸ near.2, there ▸ near.1⟩).symm
            · exact unrepeated.across date other first second found met ne near
          · intro date first found
            rw [Dict.get?_set] at found
            split at found
            · cases found
              rw [facts]
              exact distinct
            · exact unrepeated.within date first found

theorem Unrepeated.along_iff {authors : Authors} (unrepeated : authors.Unrepeated)
    (labels : List Label) :
    Run.Along step (fun authors label => (authors.step label).Unrepeated) authors labels ↔
      Run.Along step Current authors labels := by
  induction labels generalizing authors with
  | nil => exact Iff.rfl
  | cons label rest ih =>
    have same := unrepeated.step_iff label
    constructor
    · rintro ⟨kept, later⟩
      exact ⟨same.mp kept, (ih kept).mp later⟩
    · rintro ⟨current, later⟩
      have kept := same.mpr current
      exact ⟨kept, (ih kept).mpr later⟩

/--
For every interleaving of calls: no two ready days at most 90 days apart and no
two questions of one day share a fact, in every state exactly when no call
publishes a fact that another call published after the first one read the bank.
-/
theorem facts_unrepeated_iff (labels : List Label) :
    Run.Along step (fun authors label => (authors.step label).Unrepeated) initial labels ↔
      Run.Along step Current initial labels :=
  unrepeated_initial.along_iff labels

/-- Eight questions about eight facts. -/
def sampleDay (puzzleDate : Nat) : DayDraft :=
  let question (name : String) : AuthoredQuestion :=
    ⟨"", name.toList, ["1".toList, "2".toList, "3".toList, "4".toList], 0, "",
      some ⟨name, "", "", name⟩⟩
  ⟨puzzleDate, ["a", "b", "c", "d", "e"].map question, ["f", "g", "h"].map question, none⟩

/-- Two days are prepared at once, with the same questions. -/
def preparedAtOnce : List Label :=
  let referee : Referee := ⟨id, true, fun _ _ => false⟩
  [.read 1 (sampleDay 10), .read 2 (sampleDay 11), .publish 1 referee, .publish 2 referee]

/-- Both days are published, and they share a fact. -/
theorem fact_repeated : ¬∀ labels,
    Run.Along step (fun authors label => (authors.step label).Unrepeated) initial labels := by
  intro unrepeated
  have last := (unrepeated preparedAtOnce).2.2.2.1
  have disjoint := last.across 10 11 ⟨1, factsOf (sampleDay 10).questions⟩
    ⟨1, factsOf (sampleDay 11).questions⟩ (by decide +kernel) (by decide +kernel) (by decide)
    ⟨by decide, by decide⟩
  have first : "a" ∈ hashesOf (factsOf (sampleDay 10).questions) := by decide +kernel
  have second : "a" ∈ hashesOf (factsOf (sampleDay 11).questions) := by decide +kernel
  exact disjoint first second

end Authors

end BobbyBotique.Daily
