import BobbyBotique.Foundation.Locking
import Mathlib.Algebra.BigOperators.Group.List.Basic
import Mathlib.Algebra.GroupWithZero.Nat
import Mathlib.Algebra.Ring.Int.Defs

/-!
# The answers of the daily trivia

An answer is scored under the lock of the player's main row.  It is appended
when it answers the next question of the pinned puzzle, and the last answer of
the super game settles the main score once.
-/

namespace BobbyBotique.Daily

abbrev RevisionId := Nat

structure TriviaQuestion where
  options : List String
  correctIndex : Nat

/-- A puzzle as it is read; only a revision can belong to another date. -/
structure TriviaPuzzle where
  questions : List TriviaQuestion
  superQuestions : List TriviaQuestion
  ofDate : Bool
  publishedRevisionId : Option RevisionId

/-- The puzzles that the player's date can refer to. -/
structure TriviaWorld where
  /-- The row of `daily_trivia_puzzles`. -/
  puzzle : Option TriviaPuzzle
  /-- `get_puzzle_revision`, without the number of the revision. -/
  revisions : RevisionId → Option TriviaPuzzle
  /-- The revision that the migration imported for the date. -/
  legacyImport : Option RevisionId

structure TriviaAnswer where
  questionIndex : Nat
  selectedIndex : Nat
  isCorrect : Bool
  elapsedMs : Nat
  deltaScore : Option Int

/-- A row of `daily_trivia_results`. -/
structure TriviaResult where
  completed : Bool
  currentQuestion : Nat
  correctCount : Nat
  finalScore : Int
  elapsedMs : Nat
  answers : List TriviaAnswer
  superDelta : Option Int
  superCorrect : Option Nat
  puzzleRevisionId : Option RevisionId

/-- A row of `daily_trivia_super_results`. -/
structure SuperResult where
  completed : Bool
  deltaScore : Int
  correctCount : Nat
  elapsedMs : Nat
  answers : List TriviaAnswer
  puzzleRevisionId : Option RevisionId

/-- The rows of one player and date. -/
structure TriviaRows where
  main : Option TriviaResult
  super : Option SuperResult

def TriviaRows.empty : TriviaRows := ⟨none, none⟩

/-- The arguments of `submit_answer`; a negative number stands for a value that is no integer. -/
structure SubmitCall where
  questionIndex : Int
  selectedIndex : Int
  elapsedMs : Int
  puzzleRevisionId : Option Int
  isSuper : Bool

/-- The arguments that `validate_answer_input` accepts. -/
structure AnswerInput where
  questionIndex : Nat
  selectedIndex : Nat
  elapsedMs : Nat
  puzzleRevisionId : Option RevisionId

inductive TriviaError where
  | invalidAnswerInput
  | invalidRevisionId
  | puzzleUnavailable
  | mainGameNotCompleted
  | revisionConflict
  | invalidAnswerIndex
  | answerConflict
  | answerOutOfOrder
  deriving DecidableEq

/-- `validate_answer_input`. -/
def validateAnswerInput (call : SubmitCall) : Except TriviaError AnswerInput :=
  if call.questionIndex < 0 ∨ call.selectedIndex < 0 ∨ call.elapsedMs < 0 ∨
      call.questionIndex > 2 ^ 31 - 1 ∨ call.selectedIndex > 2 ^ 31 - 1 ∨
      call.elapsedMs > 86400000 then .error .invalidAnswerInput
  else if call.puzzleRevisionId.any fun revision => !decide (0 < revision ∧ revision < 2 ^ 63) then
    .error .invalidRevisionId
  else .ok ⟨call.questionIndex.toNat, call.selectedIndex.toNat, call.elapsedMs.toNat,
    call.puzzleRevisionId.map Int.toNat⟩

namespace TriviaWorld

variable (world : TriviaWorld)

def getPuzzleRevision (revision : RevisionId) : Option TriviaPuzzle :=
  (world.revisions revision).map fun puzzle =>
    { puzzle with publishedRevisionId := some revision }

/-- `get_result_puzzle` of a result with this revision. -/
def getResultPuzzle (revision : Option RevisionId) : Option TriviaPuzzle :=
  match revision <|> world.legacyImport with
  | some revision => world.getPuzzleRevision revision
  | none => world.puzzle.map fun puzzle => { puzzle with ofDate := true }

/-- The revision that a new result asks for, when it is one of this date. -/
def requested (revision : Option RevisionId) : Option RevisionId :=
  revision.filter fun revision => (world.revisions revision).any fun puzzle => puzzle.ofDate

/-- The next question that the input answers; nothing for an answer that is stored already. -/
def judgeAnswer (input : AnswerInput) (revision : Option RevisionId)
    (lane : TriviaPuzzle → List TriviaQuestion) (answers : List TriviaAnswer) (nextQuestion : Nat) :
    Except TriviaError (Option (TriviaPuzzle × TriviaQuestion)) :=
  if input.puzzleRevisionId.isSome ∧ revision.isSome ∧ input.puzzleRevisionId ≠ revision then
    .error .revisionConflict
  else
    match world.getResultPuzzle revision with
    | none => .error .puzzleUnavailable
    | some puzzle =>
      if puzzle.ofDate = false then .error .puzzleUnavailable
      else if input.puzzleRevisionId.isSome ∧
          puzzle.publishedRevisionId ≠ input.puzzleRevisionId then .error .revisionConflict
      else
        match (lane puzzle)[input.questionIndex]? with
        | none => .error .invalidAnswerIndex
        | some question =>
          if question.options.length ≤ input.selectedIndex then .error .invalidAnswerIndex
          else if input.questionIndex < nextQuestion then
            match answers.find? fun answer => answer.questionIndex == input.questionIndex with
            | some previous =>
              if previous.selectedIndex = input.selectedIndex then .ok none
              else .error .answerConflict
            | none => .error .answerConflict
          else if input.questionIndex ≠ nextQuestion then .error .answerOutOfOrder
          else .ok (some (puzzle, question))

/-! ## The two games -/

variable (baseScore : Nat → Int)

def isCorrect (input : AnswerInput) (question : TriviaQuestion) : Bool :=
  input.selectedIndex == question.correctIndex

/-- The main row that the statement leaves. -/
def answerMain (input : AnswerInput) (puzzle : TriviaPuzzle) (question : TriviaQuestion)
    (result : TriviaResult) : TriviaResult :=
  let correct := isCorrect input question
  { result with
    currentQuestion := input.questionIndex + 1
    correctCount := result.correctCount + correct.toNat
    finalScore := result.finalScore + if correct then baseScore input.elapsedMs else 0
    elapsedMs := result.elapsedMs + input.elapsedMs
    answers := result.answers ++
      [⟨input.questionIndex, input.selectedIndex, correct, input.elapsedMs, none⟩]
    completed := input.questionIndex + 1 == puzzle.questions.length
    puzzleRevisionId := result.puzzleRevisionId <|> puzzle.publishedRevisionId }

/-- The super row that the statement leaves. -/
def answerSuper (input : AnswerInput) (puzzle : TriviaPuzzle) (question : TriviaQuestion)
    (result : SuperResult) : SuperResult :=
  let correct := isCorrect input question
  let delta := baseScore input.elapsedMs * if correct then 2 else -2
  { deltaScore := result.deltaScore + delta
    correctCount := result.correctCount + correct.toNat
    elapsedMs := result.elapsedMs + input.elapsedMs
    answers := result.answers ++
      [⟨input.questionIndex, input.selectedIndex, correct, input.elapsedMs, some delta⟩]
    completed := input.questionIndex + 1 == puzzle.superQuestions.length
    puzzleRevisionId := result.puzzleRevisionId <|> puzzle.publishedRevisionId }

/-- The second statement of the last super answer. -/
def settleMain (result : TriviaResult) (finished : SuperResult) : TriviaResult :=
  { result with
    finalScore := max 0 (result.finalScore + finished.deltaScore)
    superDelta := some finished.deltaScore
    superCorrect := some finished.correctCount }

/-- The row of `get_or_create_result`. -/
def mainRow (rows : TriviaRows) (input : AnswerInput) : Except TriviaError TriviaResult :=
  match rows.main, world.puzzle with
  | some main, _ => .ok main
  | none, none => .error .puzzleUnavailable
  | none, some puzzle =>
    .ok ⟨false, 0, 0, 0, 0, [], none, none,
      world.requested input.puzzleRevisionId <|> puzzle.publishedRevisionId⟩

/-- The revision that the super game asks for. -/
def superRevision (main : TriviaResult) : Except TriviaError (Option RevisionId) :=
  match main.puzzleRevisionId, world.getResultPuzzle none with
  | some revision, _ => .ok (some revision)
  | none, some played => .ok played.publishedRevisionId
  | none, none => .error .puzzleUnavailable

/-- The row of `get_or_create_super_result` for a completed main row. -/
def superRow (rows : TriviaRows) (main : TriviaResult) (wanted : Option RevisionId) :
    Except TriviaError SuperResult :=
  match rows.super, world.puzzle with
  | some existing, _ => .ok existing
  | none, none => .error .puzzleUnavailable
  | none, some puzzle =>
    .ok ⟨false, 0, 0, 0, [],
      main.puzzleRevisionId <|> world.requested wanted <|> puzzle.publishedRevisionId⟩

/-- `_submit_answer_on_conn` for the main game. -/
def submitMain (rows : TriviaRows) (input : AnswerInput) : Except TriviaError TriviaRows := do
  let main ← world.mainRow rows input
  if main.completed then return { rows with main := some main }
  match ← world.judgeAnswer input main.puzzleRevisionId TriviaPuzzle.questions main.answers
      main.currentQuestion with
  | none => return { rows with main := some main }
  | some (puzzle, question) =>
    return { rows with main := some (answerMain baseScore input puzzle question main) }

/-- `_submit_answer_on_conn` for the super game. -/
def submitSuper (rows : TriviaRows) (input : AnswerInput) : Except TriviaError TriviaRows := do
  match rows.main with
  | none => throw .mainGameNotCompleted
  | some main =>
    if main.completed = false then throw .mainGameNotCompleted
    let wanted ← world.superRevision main
    let result ← world.superRow rows main wanted
    if result.completed then return { rows with super := some result }
    match ← world.judgeAnswer input (result.puzzleRevisionId <|> main.puzzleRevisionId)
        TriviaPuzzle.superQuestions result.answers result.answers.length with
    | none => return { rows with super := some result }
    | some (puzzle, question) =>
      let updated := answerSuper baseScore input puzzle question result
      return ⟨some (if updated.completed then settleMain main updated else main), some updated⟩

/-- `submit_answer`. -/
def submit (rows : TriviaRows) (call : SubmitCall) : Except TriviaError TriviaRows := do
  let input ← validateAnswerInput call
  if call.isSuper then world.submitSuper baseScore rows input
  else world.submitMain baseScore rows input

/-- The rows after a call; an error rolls the transaction back. -/
def step (rows : TriviaRows) (call : SubmitCall) : TriviaRows :=
  match world.submit baseScore rows call with
  | .ok after => after
  | .error _ => rows

variable {world baseScore}

/-! ## What is stored -/

/-- The stored answers are the first questions in their order, each answered once. -/
structure Answered (questions : List TriviaQuestion) (answers : List TriviaAnswer) : Prop where
  inOrder : answers.map TriviaAnswer.questionIndex = List.range answers.length
  judged : ∀ answer ∈ answers, ∃ question, questions[answer.questionIndex]? = some question ∧
    answer.selectedIndex < question.options.length ∧
    answer.isCorrect = (answer.selectedIndex == question.correctIndex)

variable (baseScore) in
/-- The sum of the scores of the correct answers. -/
def mainScore (answers : List TriviaAnswer) : Int :=
  (answers.map fun answer => if answer.isCorrect then baseScore answer.elapsedMs else 0).sum

variable (baseScore) in
def superScore (answers : List TriviaAnswer) : Int :=
  (answers.map fun answer => baseScore answer.elapsedMs * if answer.isCorrect then 2 else -2).sum

variable (world baseScore) in
structure MainKept (row : TriviaResult) : Prop where
  puzzle : ∃ puzzle, world.getResultPuzzle row.puzzleRevisionId = some puzzle ∧
    Answered puzzle.questions row.answers ∧
    (row.completed = true ↔ row.answers.length = puzzle.questions.length)
  started : row.answers ≠ []
  current : row.currentQuestion = row.answers.length
  correct : row.correctCount = row.answers.countP TriviaAnswer.isCorrect
  elapsed : row.elapsedMs = (row.answers.map TriviaAnswer.elapsedMs).sum
  /-- A result without a revision plays a puzzle that was never published. -/
  unpinned : row.puzzleRevisionId = none →
    world.legacyImport = none ∧ ∀ puzzle ∈ world.puzzle, puzzle.publishedRevisionId = none

variable (world baseScore) in
structure SuperKept (main : TriviaResult) (row : SuperResult) : Prop where
  puzzle : ∃ puzzle, world.getResultPuzzle row.puzzleRevisionId = some puzzle ∧
    Answered puzzle.superQuestions row.answers ∧
    (row.completed = true ↔ row.answers.length = puzzle.superQuestions.length)
  started : row.answers ≠ []
  correct : row.correctCount = row.answers.countP TriviaAnswer.isCorrect
  elapsed : row.elapsedMs = (row.answers.map TriviaAnswer.elapsedMs).sum
  delta : row.deltaScore = superScore baseScore row.answers
  pinned : row.puzzleRevisionId = main.puzzleRevisionId
  after : main.completed = true

variable (baseScore) in
/-- The super game settles the main score once it is completed, and once only. -/
def Settled (main : TriviaResult) : Option SuperResult → Prop
  | some ⟨true, delta, correct, _, _, _⟩ =>
    main.finalScore = max 0 (mainScore baseScore main.answers + delta) ∧
      main.superDelta = some delta ∧ main.superCorrect = some correct
  | _ => main.finalScore = mainScore baseScore main.answers ∧ main.superDelta = none ∧
      main.superCorrect = none

variable (world baseScore) in
/-- The rows of a player add up. -/
structure Kept (rows : TriviaRows) : Prop where
  main : ∀ main, rows.main = some main → MainKept world main ∧ Settled baseScore main rows.super ∧
      ∀ row, rows.super = some row → SuperKept world baseScore main row
  alone : rows.main = none → rows.super = none

theorem kept_empty : Kept world baseScore .empty := by
  constructor
  · intro main found
    cases found
  · exact fun _ => rfl

/-- What the judge lets through. -/
structure Judged (world : TriviaWorld) (input : AnswerInput) (revision : Option RevisionId)
    (lane : TriviaPuzzle → List TriviaQuestion) (nextQuestion : Nat) (puzzle : TriviaPuzzle)
    (question : TriviaQuestion) : Prop where
  found : world.getResultPuzzle revision = some puzzle
  asked : (lane puzzle)[nextQuestion]? = some question
  option : input.selectedIndex < question.options.length
  next : input.questionIndex = nextQuestion

theorem judgeAnswer_spec {input : AnswerInput} {revision : Option RevisionId}
    {lane : TriviaPuzzle → List TriviaQuestion} {answers : List TriviaAnswer} {nextQuestion : Nat}
    {verdict : Option (TriviaPuzzle × TriviaQuestion)}
    (judged : world.judgeAnswer input revision lane answers nextQuestion = .ok verdict) :
    match verdict with
    | none => input.questionIndex < nextQuestion
    | some (puzzle, question) => Judged world input revision lane nextQuestion puzzle question := by
  unfold judgeAnswer at judged
  split at judged
  · cases judged
  · split at judged
    · cases judged
    · next puzzle found =>
        split at judged
        · cases judged
        · split at judged
          · cases judged
          · split at judged
            · cases judged
            · next question asked =>
                split at judged
                · cases judged
                · next option =>
                    split at judged
                    · next earlier =>
                        split at judged
                        · split at judged
                          · cases judged
                            exact earlier
                          · cases judged
                        · cases judged
                    · split at judged
                      · cases judged
                      · next due =>
                          cases judged
                          have next := not_not.mp due
                          exact ⟨found, next ▸ asked, Nat.lt_of_not_le option, next⟩

theorem Answered.append {questions : List TriviaQuestion} {answers : List TriviaAnswer}
    (answered : Answered questions answers) {question : TriviaQuestion}
    (asked : questions[answers.length]? = some question) {selected : Nat}
    (option : selected < question.options.length) (elapsed : Nat) (delta : Option Int) :
    Answered questions (answers ++ [⟨answers.length, selected, selected == question.correctIndex,
      elapsed, delta⟩]) := by
  constructor
  · rw [List.map_append, answered.inOrder, List.length_append, List.length_singleton,
      List.range_succ]
    rfl
  · intro answer member
    rcases List.mem_append.mp member with old | new
    · exact answered.judged answer old
    · cases List.mem_singleton.mp new
      exact ⟨question, asked, option, rfl⟩

theorem answered_nil (questions : List TriviaQuestion) : Answered questions [] := by
  constructor
  · rfl
  · intro answer member
    cases member

theorem mainScore_append (answers : List TriviaAnswer) (answer : TriviaAnswer) :
    mainScore baseScore (answers ++ [answer]) =
      mainScore baseScore answers + if answer.isCorrect then baseScore answer.elapsedMs else 0 := by
  simp [mainScore]

theorem superScore_append (answers : List TriviaAnswer) (answer : TriviaAnswer) :
    superScore baseScore (answers ++ [answer]) = superScore baseScore answers +
      baseScore answer.elapsedMs * if answer.isCorrect then 2 else -2 := by
  simp [superScore]

theorem countP_append_single (answers : List TriviaAnswer) (answer : TriviaAnswer) :
    (answers ++ [answer]).countP TriviaAnswer.isCorrect =
      answers.countP TriviaAnswer.isCorrect + answer.isCorrect.toNat := by
  cases given : answer.isCorrect <;> simp [given]

/-- The pin of an answer names the puzzle that was answered. -/
theorem getResultPuzzle_pin {revision : Option RevisionId} {puzzle : TriviaPuzzle}
    (found : world.getResultPuzzle revision = some puzzle)
    (unpinned : revision = none → ∀ puzzle ∈ world.puzzle, puzzle.publishedRevisionId = none) :
    world.getResultPuzzle (revision <|> puzzle.publishedRevisionId) = some puzzle ∧
      ((revision <|> puzzle.publishedRevisionId) = none → world.legacyImport = none ∧
          ∀ puzzle ∈ world.puzzle, puzzle.publishedRevisionId = none) := by
  cases revision with
  | some revision => exact ⟨found, fun none => nomatch none⟩
  | none =>
    unfold getResultPuzzle at found ⊢
    cases imported : world.legacyImport with
    | some legacy =>
      rw [imported] at found
      obtain ⟨content, _, same⟩ := Option.map_eq_some_iff.mp found
      have pinned : puzzle.publishedRevisionId = some legacy := by rw [← same]
      rw [pinned]
      exact ⟨found, fun none => nomatch none⟩
    | none =>
      rw [imported] at found
      obtain ⟨current, there, same⟩ := Option.map_eq_some_iff.mp found
      have unpublished : puzzle.publishedRevisionId = none := by
        rw [← same]
        exact unpinned rfl current there
      rw [unpublished]
      exact ⟨found, fun _ => ⟨rfl, unpinned rfl⟩⟩

/-! ## What a call does -/

/-- A call of the main game changes nothing or appends the answer to the next question. -/
theorem submitMain_cases {rows after : TriviaRows} {input : AnswerInput}
    (accepted : world.submitMain baseScore rows input = .ok after) :
    (after = rows ∧ ∃ main, rows.main = some main ∧
        (main.completed = true ∨ input.questionIndex < main.currentQuestion)) ∨
      ∃ main puzzle question, world.mainRow rows input = .ok main ∧ main.completed = false ∧
        Judged world input main.puzzleRevisionId TriviaPuzzle.questions main.currentQuestion puzzle
          question ∧
        after = { rows with main := some (answerMain baseScore input puzzle question main) } := by
  unfold submitMain at accepted
  cases row : world.mainRow rows input with
  | error reason =>
    rw [row] at accepted
    cases accepted
  | ok main =>
    rw [row] at accepted
    -- A row that is created here has no answers yet.
    have existing : main.completed = true ∨ input.questionIndex < main.currentQuestion →
        rows.main = some main := by
      intro played
      cases found : rows.main with
      | some existing =>
        simp only [mainRow, found] at row
        exact congrArg some (Except.ok.inj row)
      | none =>
        simp only [mainRow, found] at row
        split at row
        · next impossible => cases impossible
        · cases row
        · cases row
          rcases played with completed | earlier
          · cases completed
          · cases earlier
    dsimp only [bind, Except.bind] at accepted
    split at accepted
    · next completed =>
        cases accepted
        have found := existing (.inl completed)
        refine .inl ⟨?_, main, found, .inl completed⟩
        rw [← found]
    · next active =>
        split at accepted
        · cases accepted
        · next verdict judged =>
            have spec := judgeAnswer_spec judged
            split at accepted
            · cases accepted
              have found := existing (.inr spec)
              refine .inl ⟨?_, main, found, .inr spec⟩
              rw [← found]
            · next puzzle question =>
                cases accepted
                exact .inr ⟨main, puzzle, question, rfl, Bool.eq_false_iff.mpr active, spec, rfl⟩

/-- A call of the super game changes nothing or appends the answer to its next question. -/
theorem submitSuper_cases {rows after : TriviaRows} {input : AnswerInput}
    (accepted : world.submitSuper baseScore rows input = .ok after) :
    (after = rows ∧ ∃ row, rows.super = some row ∧
        (row.completed = true ∨ input.questionIndex < row.answers.length)) ∨
      ∃ main wanted row puzzle question, rows.main = some main ∧ main.completed = true ∧
        world.superRevision main = .ok wanted ∧ world.superRow rows main wanted = .ok row ∧
        row.completed = false ∧
        Judged world input (row.puzzleRevisionId <|> main.puzzleRevisionId)
          TriviaPuzzle.superQuestions row.answers.length puzzle question ∧
        after =
          ⟨some (if (answerSuper baseScore input puzzle question row).completed then
              settleMain main (answerSuper baseScore input puzzle question row) else main),
            some (answerSuper baseScore input puzzle question row)⟩ := by
  unfold submitSuper at accepted
  cases played : rows.main with
  | none =>
    rw [played] at accepted
    cases accepted
  | some main =>
    rw [played] at accepted
    dsimp only [bind, Except.bind] at accepted
    split at accepted
    · cases accepted
    · next completed =>
        split at accepted
        · cases accepted
        · next wanted revision =>
            split at accepted
            · cases accepted
            · next row created =>
                have existing : row.completed = true ∨
                    input.questionIndex < row.answers.length → rows.super = some row := by
                  intro played
                  cases found : rows.super with
                  | some existing =>
                    simp only [superRow, found] at created
                    exact congrArg some (Except.ok.inj created)
                  | none =>
                    simp only [superRow, found] at created
                    split at created
                    · next impossible => cases impossible
                    · cases created
                    · cases created
                      rcases played with completed | earlier
                      · cases completed
                      · cases earlier
                split at accepted
                · next finished =>
                    cases accepted
                    have found := existing (.inl finished)
                    refine .inl ⟨?_, row, found, .inl finished⟩
                    rw [← found, ← played]
                · next active =>
                    split at accepted
                    · cases accepted
                    · next verdict judged =>
                        have spec := judgeAnswer_spec judged
                        split at accepted
                        · cases accepted
                          have found := existing (.inr spec)
                          refine .inl ⟨?_, row, found, .inr spec⟩
                          rw [← found, ← played]
                        · next puzzle question =>
                            cases accepted
                            exact .inr ⟨main, wanted, row, puzzle, question, rfl,
                              (Bool.not_eq_false _).mp completed, revision, created,
                              Bool.eq_false_iff.mpr active, spec, rfl⟩

/-- What the next answer of the main game builds on. -/
structure MainReady (world : TriviaWorld) (baseScore : Nat → Int) (row : TriviaResult) :
    Prop where
  answered : ∀ puzzle, world.getResultPuzzle row.puzzleRevisionId = some puzzle →
    Answered puzzle.questions row.answers
  current : row.currentQuestion = row.answers.length
  correct : row.correctCount = row.answers.countP TriviaAnswer.isCorrect
  elapsed : row.elapsedMs = (row.answers.map TriviaAnswer.elapsedMs).sum
  unpinned : row.puzzleRevisionId = none →
    ∀ puzzle ∈ world.puzzle, puzzle.publishedRevisionId = none
  unsettled : Settled baseScore row none

theorem Kept.mainReady {rows : TriviaRows} (kept : Kept world baseScore rows) {input : AnswerInput}
    {row : TriviaResult} (found : world.mainRow rows input = .ok row)
    (active : row.completed = false) : rows.super = none ∧ MainReady world baseScore row := by
  cases stored : rows.main with
  | some main =>
    simp only [mainRow, stored] at found
    cases found
    obtain ⟨main, settled, played⟩ := kept.main row stored
    have alone : rows.super = none := by
      cases there : rows.super with
      | none => rfl
      | some other => exact absurd (active.symm.trans (played other there).after) Bool.noConfusion
    rw [alone] at settled
    obtain ⟨puzzle, resolved, answered, _⟩ := main.puzzle
    refine ⟨alone, ⟨?_, main.current, main.correct, main.elapsed, ?_, settled⟩⟩
    · intro other same
      cases resolved.symm.trans same
      exact answered
    · exact fun missing => (main.unpinned missing).2
  | none =>
    simp only [mainRow, stored] at found
    split at found
    · next impossible => cases impossible
    · cases found
    · next puzzle _ here =>
        cases found
        refine ⟨kept.alone stored, ⟨fun puzzle _ => answered_nil _, rfl, rfl, rfl, ?_,
          ⟨rfl, rfl, rfl⟩⟩⟩
        intro missing other there
        cases here.symm.trans there
        exact (by simpa using missing : _ ∧ puzzle.publishedRevisionId = none).2

/-- An answer to the next question adds up. -/
theorem MainReady.answer {row : TriviaResult} (ready : MainReady world baseScore row)
    {input : AnswerInput} {puzzle : TriviaPuzzle} {question : TriviaQuestion}
    (judged : Judged world input row.puzzleRevisionId TriviaPuzzle.questions row.currentQuestion
      puzzle question) :
    MainKept world (answerMain baseScore input puzzle question row) ∧
      Settled baseScore (answerMain baseScore input puzzle question row) none := by
  obtain ⟨pinned, unpinned⟩ := getResultPuzzle_pin judged.found ready.unpinned
  have next : input.questionIndex = row.answers.length := judged.next.trans ready.current
  have answered := (ready.answered puzzle judged.found).append (ready.current ▸ judged.asked)
    judged.option input.elapsedMs none
  rw [← next] at answered
  refine ⟨⟨⟨puzzle, pinned, answered, ?_⟩, ?_, ?_, ?_, ?_, unpinned⟩, ?_, ready.unsettled.2⟩
  · dsimp only [answerMain]
    rw [List.length_append, List.length_singleton, ← next, beq_iff_eq]
  · exact List.append_ne_nil_of_right_ne_nil _ (List.cons_ne_nil _ _)
  · dsimp only [answerMain]
    rw [List.length_append, List.length_singleton, next]
  · dsimp only [answerMain]
    rw [countP_append_single, ready.correct]
  · dsimp only [answerMain]
    rw [List.map_append, List.sum_append, ready.elapsed]
    rfl
  · dsimp only [answerMain]
    rw [mainScore_append, ready.unsettled.1]

/-- What the next answer of the super game builds on. -/
structure SuperReady (world : TriviaWorld) (baseScore : Nat → Int) (main : TriviaResult)
    (row : SuperResult) : Prop where
  answered : ∀ puzzle, world.getResultPuzzle row.puzzleRevisionId = some puzzle →
    Answered puzzle.superQuestions row.answers
  correct : row.correctCount = row.answers.countP TriviaAnswer.isCorrect
  elapsed : row.elapsedMs = (row.answers.map TriviaAnswer.elapsedMs).sum
  delta : row.deltaScore = superScore baseScore row.answers
  pinned : row.puzzleRevisionId = main.puzzleRevisionId
  unsettled : Settled baseScore main none

/-- A super row is created with the revision of the main row. -/
theorem superRow_pinned {main : TriviaResult} (kept : MainKept world main)
    {wanted : Option RevisionId} (asked : world.superRevision main = .ok wanted)
    {puzzle : TriviaPuzzle} (here : world.puzzle = some puzzle) :
    (main.puzzleRevisionId <|> world.requested wanted <|> puzzle.publishedRevisionId) =
      main.puzzleRevisionId := by
  cases pinned : main.puzzleRevisionId with
  | some revision => rfl
  | none =>
    obtain ⟨imported, published⟩ := kept.unpinned pinned
    have unpublished := published puzzle here
    have nothing : wanted = none := by
      simp only [superRevision, pinned, getResultPuzzle, imported, here] at asked
      exact (Except.ok.inj asked).symm.trans unpublished
    rw [nothing, unpublished]
    rfl

theorem Kept.superReady {rows : TriviaRows} (kept : Kept world baseScore rows)
    {main : TriviaResult} (played : rows.main = some main) {wanted : Option RevisionId}
    (asked : world.superRevision main = .ok wanted) {row : SuperResult}
    (found : world.superRow rows main wanted = .ok row) (active : row.completed = false) :
    SuperReady world baseScore main row := by
  obtain ⟨mainKept, settled, superKept⟩ := kept.main main played
  cases stored : rows.super with
  | some other =>
    simp only [superRow, stored] at found
    cases found
    have row_kept := superKept row stored
    obtain ⟨puzzle, resolved, answered, _⟩ := row_kept.puzzle
    refine ⟨?_, row_kept.correct, row_kept.elapsed, row_kept.delta, row_kept.pinned, ?_⟩
    · intro other same
      cases resolved.symm.trans same
      exact answered
    · rw [stored] at settled
      obtain ⟨completed, delta, correct, elapsed, answers, revision⟩ := row
      cases active
      exact settled
  | none =>
    simp only [superRow, stored] at found
    split at found
    · next impossible => cases impossible
    · cases found
    · next puzzle _ here =>
        cases found
        rw [stored] at settled
        exact ⟨fun puzzle _ => answered_nil _, rfl, rfl, rfl,
          superRow_pinned mainKept asked here, settled⟩

/-- The settled main row differs in its score only. -/
theorem MainKept.settle {main : TriviaResult} (kept : MainKept world main) (row : SuperResult) :
    MainKept world (settleMain main row) :=
  ⟨kept.puzzle, kept.started, kept.current, kept.correct, kept.elapsed, kept.unpinned⟩

theorem SuperReady.answer {main : TriviaResult} {row : SuperResult}
    (ready : SuperReady world baseScore main row) (mainKept : MainKept world main)
    (after : main.completed = true) {input : AnswerInput} {puzzle : TriviaPuzzle}
    {question : TriviaQuestion}
    (judged : Judged world input (row.puzzleRevisionId <|> main.puzzleRevisionId)
      TriviaPuzzle.superQuestions row.answers.length puzzle question) :
    SuperKept world baseScore main (answerSuper baseScore input puzzle question row) := by
  have found : world.getResultPuzzle row.puzzleRevisionId = some puzzle := by
    have same : (row.puzzleRevisionId <|> main.puzzleRevisionId) = row.puzzleRevisionId := by
      rw [ready.pinned]
      cases main.puzzleRevisionId <;> rfl
    exact same ▸ judged.found
  have unpinned : row.puzzleRevisionId = none →
      ∀ puzzle ∈ world.puzzle, puzzle.publishedRevisionId = none :=
    fun missing => (mainKept.unpinned (ready.pinned.symm.trans missing)).2
  obtain ⟨pinned, _⟩ := getResultPuzzle_pin found unpinned
  have answered := (ready.answered puzzle found).append judged.asked judged.option input.elapsedMs
    (some (baseScore input.elapsedMs * if isCorrect input question then 2 else -2))
  rw [← judged.next] at answered
  refine ⟨⟨puzzle, pinned, answered, ?_⟩, ?_, ?_, ?_, ?_, ?_, after⟩
  · dsimp only [answerSuper]
    rw [List.length_append, List.length_singleton, ← judged.next, beq_iff_eq]
  · exact List.append_ne_nil_of_right_ne_nil _ (List.cons_ne_nil _ _)
  · dsimp only [answerSuper]
    rw [countP_append_single, ready.correct]
  · dsimp only [answerSuper]
    rw [List.map_append, List.sum_append, ready.elapsed]
    rfl
  · dsimp only [answerSuper]
    rw [superScore_append, ready.delta]
  · dsimp only [answerSuper]
    cases revision : row.puzzleRevisionId with
    | some revision => exact revision.symm.trans ready.pinned
    | none =>
      have unpublished : puzzle.publishedRevisionId = none := by
        rw [revision] at found
        cases published : puzzle.publishedRevisionId with
        | none => rfl
        | some other =>
          obtain ⟨imported, never⟩ := mainKept.unpinned (ready.pinned.symm.trans revision)
          unfold getResultPuzzle at found
          rw [imported] at found
          obtain ⟨current, there, same⟩ := Option.map_eq_some_iff.mp found
          rw [← same] at published
          cases published.symm.trans (never current there)
      rw [unpublished, ← ready.pinned, revision]
      rfl

/-- An accepted call passed the checks of its input and was answered in its game. -/
theorem submit_cases {rows after : TriviaRows} {call : SubmitCall}
    (accepted : world.submit baseScore rows call = .ok after) :
    ∃ input : AnswerInput, input.questionIndex = call.questionIndex.toNat ∧
      (call.isSuper = true ∧ world.submitSuper baseScore rows input = .ok after ∨
        ¬call.isSuper = true ∧ world.submitMain baseScore rows input = .ok after) := by
  unfold submit at accepted
  cases valid : validateAnswerInput call with
  | error reason =>
    rw [valid] at accepted
    cases accepted
  | ok input =>
    rw [valid] at accepted
    have index : input.questionIndex = call.questionIndex.toNat := by
      unfold validateAnswerInput at valid
      split at valid
      · cases valid
      · split at valid
        · cases valid
        · cases valid
          rfl
    dsimp only [bind, Except.bind] at accepted
    split at accepted
    · next game => exact ⟨input, index, .inl ⟨game, accepted⟩⟩
    · next game => exact ⟨input, index, .inr ⟨game, accepted⟩⟩

theorem Kept.mainAnswer {rows : TriviaRows} (alone : rows.super = none) {main : TriviaResult}
    (ready : MainReady world baseScore main) {input : AnswerInput} {puzzle : TriviaPuzzle}
    {question : TriviaQuestion}
    (judged : Judged world input main.puzzleRevisionId TriviaPuzzle.questions main.currentQuestion
      puzzle question) :
    Kept world baseScore
      { rows with main := some (answerMain baseScore input puzzle question main) } := by
  obtain ⟨mainKept, settled⟩ := ready.answer judged
  refine ⟨fun other here => ?_, fun missing => nomatch missing⟩
  cases here
  dsimp only
  rw [alone]
  exact ⟨mainKept, settled, fun other there => nomatch there⟩

/-- The answer that ends the super game settles the main row. -/
theorem Kept.superAnswer {main : TriviaResult} {row : SuperResult}
    (ready : SuperReady world baseScore main row) (mainKept : MainKept world main)
    (completed : main.completed = true) {input : AnswerInput} {puzzle : TriviaPuzzle}
    {question : TriviaQuestion}
    (judged : Judged world input (row.puzzleRevisionId <|> main.puzzleRevisionId)
      TriviaPuzzle.superQuestions row.answers.length puzzle question) :
    Kept world baseScore
      ⟨some (if (answerSuper baseScore input puzzle question row).completed then
          settleMain main (answerSuper baseScore input puzzle question row) else main),
        some (answerSuper baseScore input puzzle question row)⟩ := by
  have superKept := ready.answer mainKept completed judged
  refine ⟨fun other here => ?_, fun missing => nomatch missing⟩
  cases here
  generalize answerSuper baseScore input puzzle question row = answered at superKept ⊢
  cases finished : answered.completed with
  | false =>
    refine ⟨mainKept, ?_, fun other there => ?_⟩
    · obtain ⟨completed, delta, correct, elapsed, answers, revision⟩ := answered
      cases finished
      exact ready.unsettled
    · cases there
      exact superKept
  | true =>
    refine ⟨mainKept.settle answered, ?_, fun other there => ?_⟩
    · obtain ⟨_, delta, correct, elapsed, answers, revision⟩ := answered
      cases finished
      refine ⟨?_, rfl, rfl⟩
      dsimp only [settleMain]
      rw [ready.unsettled.1]
      rfl
    · cases there
      exact ⟨superKept.puzzle, superKept.started, superKept.correct,
        superKept.elapsed, superKept.delta, superKept.pinned, superKept.after⟩

/-- Every call keeps what is stored adding up. -/
theorem Kept.step {rows : TriviaRows} (kept : Kept world baseScore rows) (call : SubmitCall) :
    Kept world baseScore (world.step baseScore rows call) := by
  unfold TriviaWorld.step
  split
  · next after accepted =>
      obtain ⟨input, _, ⟨_, super⟩ | ⟨_, main⟩⟩ := submit_cases accepted
      · rcases submitSuper_cases super with ⟨same, _⟩ |
          ⟨main, wanted, row, puzzle, question, played, completed, asked, found, active, judged,
            same⟩
        · exact same ▸ kept
        · have ready := kept.superReady played asked found active
          exact same ▸ .superAnswer ready (kept.main main played).1 completed judged
      · rcases submitMain_cases main with ⟨same, _⟩ |
          ⟨main, puzzle, question, found, active, judged, same⟩
        · exact same ▸ kept
        · obtain ⟨alone, ready⟩ := kept.mainReady found active
          exact same ▸ .mainAnswer alone ready judged
  · exact kept

/-! ## What is never taken back -/

/-- The answers that are stored for a game. -/
def storedAnswers (rows : TriviaRows) (isSuper : Bool) : List TriviaAnswer :=
  if isSuper then (rows.super.map SuperResult.answers).getD []
  else (rows.main.map TriviaResult.answers).getD []

/-- Answers are only added, and a revision that is pinned stays. -/
structure Grows (before after : TriviaRows) : Prop where
  answers : ∀ isSuper, storedAnswers before isSuper <+: storedAnswers after isSuper
  main : ∀ row revision, before.main = some row → row.puzzleRevisionId = some revision →
    ∃ next, after.main = some next ∧ next.puzzleRevisionId = some revision
  super : ∀ row revision, before.super = some row → row.puzzleRevisionId = some revision →
    ∃ next, after.super = some next ∧ next.puzzleRevisionId = some revision

theorem Grows.refl (rows : TriviaRows) : Grows rows rows :=
  ⟨fun _ => List.prefix_refl _, fun row _ found pinned => ⟨row, found, pinned⟩,
    fun row _ found pinned => ⟨row, found, pinned⟩⟩

theorem Grows.trans {first middle last : TriviaRows} (early : Grows first middle)
    (late : Grows middle last) : Grows first last := by
  constructor
  · exact fun isSuper => (early.answers isSuper).trans (late.answers isSuper)
  · intro row revision found pinned
    obtain ⟨next, there, kept⟩ := early.main row revision found pinned
    exact late.main next revision there kept
  · intro row revision found pinned
    obtain ⟨next, there, kept⟩ := early.super row revision found pinned
    exact late.super next revision there kept

/-- The main row that is answered is the stored one, or a new one without answers. -/
theorem mainRow_stored {rows : TriviaRows} {input : AnswerInput} {main : TriviaResult}
    (found : world.mainRow rows input = .ok main) :
    (rows.main.map TriviaResult.answers).getD [] = main.answers ∧
      ∀ other, rows.main = some other → other = main := by
  cases there : rows.main with
  | some other =>
    simp only [mainRow, there] at found
    cases found
    exact ⟨rfl, fun other same => (Option.some.inj same).symm⟩
  | none =>
    simp only [mainRow, there] at found
    split at found
    · next impossible => cases impossible
    · cases found
    · cases found
      exact ⟨rfl, fun other impossible => nomatch impossible⟩

/-- The super row that is answered is the stored one, or a new one without answers. -/
theorem superRow_stored {rows : TriviaRows} {main : TriviaResult} {wanted : Option RevisionId}
    {row : SuperResult} (found : world.superRow rows main wanted = .ok row) :
    (rows.super.map SuperResult.answers).getD [] = row.answers ∧
      ∀ other, rows.super = some other → other = row := by
  cases there : rows.super with
  | some other =>
    simp only [superRow, there] at found
    cases found
    exact ⟨rfl, fun other same => (Option.some.inj same).symm⟩
  | none =>
    simp only [superRow, there] at found
    split at found
    · next impossible => cases impossible
    · cases found
    · cases found
      exact ⟨rfl, fun other impossible => nomatch impossible⟩

theorem Grows.mainAnswer {rows : TriviaRows} (alone : rows.super = none) {input : AnswerInput}
    {main : TriviaResult} (found : world.mainRow rows input = .ok main) (puzzle : TriviaPuzzle)
    (question : TriviaQuestion) :
    Grows rows { rows with main := some (answerMain baseScore input puzzle question main) } := by
  obtain ⟨stored, existing⟩ := mainRow_stored found
  refine ⟨?_, ?_, ?_⟩
  · rintro (_ | _)
    · simp only [storedAnswers, stored, Bool.false_eq_true, if_false, Option.map_some,
        Option.getD_some]
      exact List.prefix_append _ _
    · exact List.prefix_refl _
  · intro other revision here pinned
    cases existing other here
    refine ⟨_, rfl, ?_⟩
    dsimp only [answerMain]
    rw [pinned]
    rfl
  · intro other revision here
    cases alone.symm.trans here

/-- The main row keeps its answers and its pin also where it is settled. -/
theorem Grows.superAnswer {rows : TriviaRows} {main : TriviaResult}
    (played : rows.main = some main) {wanted : Option RevisionId} {row : SuperResult}
    (found : world.superRow rows main wanted = .ok row) (input : AnswerInput)
    (puzzle : TriviaPuzzle) (question : TriviaQuestion) :
    Grows rows
      ⟨some (if (answerSuper baseScore input puzzle question row).completed then
          settleMain main (answerSuper baseScore input puzzle question row) else main),
        some (answerSuper baseScore input puzzle question row)⟩ := by
  obtain ⟨stored, existing⟩ := superRow_stored found
  refine ⟨?_, ?_, ?_⟩
  · rintro (_ | _)
    · simp only [storedAnswers, played, Bool.false_eq_true, if_false, Option.map_some,
        Option.getD_some]
      split
      · exact List.prefix_refl _
      · exact List.prefix_refl _
    · simp only [storedAnswers, stored, if_true, Option.map_some, Option.getD_some]
      exact List.prefix_append _ _
  · intro other revision here pinned
    cases played.symm.trans here
    refine ⟨_, rfl, ?_⟩
    split
    · exact pinned
    · exact pinned
  · intro other revision here pinned
    cases existing other here
    refine ⟨_, rfl, ?_⟩
    dsimp only [answerSuper]
    rw [pinned]
    rfl

/-- A call leaves the rows, or it adds its own answer to its game. -/
theorem Kept.step_cases {rows : TriviaRows} (kept : Kept world baseScore rows)
    (call : SubmitCall) :
    world.step baseScore rows call = rows ∨ Grows rows (world.step baseScore rows call) ∧
        (storedAnswers rows call.isSuper).length = call.questionIndex.toNat ∧
        call.questionIndex.toNat <
          (storedAnswers (world.step baseScore rows call) call.isSuper).length := by
  unfold TriviaWorld.step
  split
  · next after accepted =>
      obtain ⟨input, index, ⟨game, super⟩ | ⟨game, main⟩⟩ := submit_cases accepted
      · rcases submitSuper_cases super with ⟨same, _⟩ |
          ⟨main, wanted, row, puzzle, question, played, _, _, found, _, judged, same⟩
        · exact .inl same
        · refine .inr ⟨same ▸ .superAnswer played found input puzzle question, ?_, ?_⟩
          · rw [storedAnswers, if_pos game, (superRow_stored found).1, ← index]
            exact judged.next.symm
          · rw [same, storedAnswers, if_pos game, ← index, judged.next]
            dsimp only [answerSuper, Option.map_some, Option.getD_some]
            rw [List.length_append]
            exact Nat.lt_succ_self _
      · rcases submitMain_cases main with ⟨same, _⟩ |
          ⟨main, puzzle, question, found, active, judged, same⟩
        · exact .inl same
        · obtain ⟨alone, ready⟩ := kept.mainReady found active
          refine .inr ⟨same ▸ .mainAnswer alone found puzzle question, ?_, ?_⟩
          · rw [storedAnswers, if_neg game, (mainRow_stored found).1, ← index]
            exact (judged.next.trans ready.current).symm
          · rw [same, storedAnswers, if_neg game, ← index, judged.next, ready.current]
            dsimp only [answerMain, Option.map_some, Option.getD_some]
            rw [List.length_append]
            exact Nat.lt_succ_self _
  · exact .inl rfl

theorem Kept.grows {rows : TriviaRows} (kept : Kept world baseScore rows) (call : SubmitCall) :
    Grows rows (world.step baseScore rows call) := by
  rcases kept.step_cases call with same | ⟨grown, _⟩
  · exact same.symm ▸ .refl rows
  · exact grown

theorem Kept.run {rows : TriviaRows} (kept : Kept world baseScore rows) (calls : List SubmitCall) :
    Kept world baseScore (Run.run (world.step baseScore) rows calls) ∧
      Grows rows (Run.run (world.step baseScore) rows calls) := by
  induction calls generalizing rows with
  | nil => exact ⟨kept, .refl rows⟩
  | cons call rest ih =>
    obtain ⟨later, grown⟩ := ih (kept.step call)
    exact ⟨later, (kept.grows call).trans grown⟩

/-- A call that repeats an answer changes nothing, however much later it comes. -/
theorem Kept.repeated {rows : TriviaRows} (kept : Kept world baseScore rows) {call : SubmitCall}
    (accepted : world.step baseScore rows call ≠ rows) {later : TriviaRows}
    (keptLater : Kept world baseScore later)
    (grown : Grows (world.step baseScore rows call) later) :
    world.step baseScore later call = later := by
  rcases kept.step_cases call with same | ⟨_, _, stored⟩
  · exact absurd same accepted
  · rcases keptLater.step_cases call with same | ⟨_, due, _⟩
    · exact same
    · have reached := stored.trans_le (grown.answers call.isSuper).length_le
      exact absurd due (Nat.ne_of_gt reached)

variable (world baseScore) in
/-- The calls of a player exclude each other by the lock of the main row. -/
def triviaLocking : Locking TriviaRows SubmitCall TriviaRows :=
  .exclusive (world.step baseScore)

variable (world baseScore) in
/-- The rows after a run from no rows. -/
def rowsAfter (labels : List (Locking.Label SubmitCall)) : TriviaRows :=
  ((triviaLocking world baseScore).reach .empty labels).store

/--
For every interleaving of submitted answers of one player and date: the rows add
up, answers are only added and a pinned revision stays; a refused call changes
nothing, and an accepted one changes nothing when it is repeated.
-/
theorem trivia_scored (world : TriviaWorld) (baseScore : Nat → Int)
    (labels further : List (Locking.Label SubmitCall)) :
    Kept world baseScore (rowsAfter world baseScore labels) ∧
      Grows (rowsAfter world baseScore labels) (rowsAfter world baseScore (labels ++ further)) ∧
      ∀ label call,
        Locking.committed ((triviaLocking world baseScore).reach .empty labels) label = [call] →
        ((∃ reason,
              world.submit baseScore (rowsAfter world baseScore labels) call = .error reason) →
            rowsAfter world baseScore (labels ++ [label]) = rowsAfter world baseScore labels) ∧
          (rowsAfter world baseScore (labels ++ [label]) ≠ rowsAfter world baseScore labels →
            ∀ later, world.step baseScore
                (rowsAfter world baseScore (labels ++ [label] ++ later)) call =
              rowsAfter world baseScore (labels ++ [label] ++ later)) := by
  have kept : ∀ labels, Kept world baseScore (rowsAfter world baseScore labels) := by
    intro labels
    rw [rowsAfter, Locking.reach_store]
    exact (kept_empty.run _).1
  have grows : ∀ labels further, Grows (rowsAfter world baseScore labels)
      (rowsAfter world baseScore (labels ++ further)) := by
    intro labels further
    rw [rowsAfter, rowsAfter, Locking.reach_append_store]
    exact ((kept labels).run _).2
  refine ⟨kept labels, grows labels further, fun label call commits => ?_⟩
  have next : rowsAfter world baseScore (labels ++ [label]) =
      world.step baseScore (rowsAfter world baseScore labels) call := by
    rw [rowsAfter, Locking.reach_next_store, commits]
    rfl
  constructor
  · rintro ⟨reason, refused⟩
    rw [next, step, refused]
  · intro accepted later
    have grown := grows (labels ++ [label]) later
    rw [next] at accepted grown
    exact (kept labels).repeated accepted (kept _) grown

end TriviaWorld

end BobbyBotique.Daily
