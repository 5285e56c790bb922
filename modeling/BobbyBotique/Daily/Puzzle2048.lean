import BobbyBotique.Daily.Moves2048
import BobbyBotique.Foundation.Locking
import BobbyBotique.Foundation.Text

/-!
# The puzzle of a date

Editors change the puzzle of a date and players start it, each in a transaction
of its own.  Editors lock the row for themselves and then ask whether it was
played; players share it.  A missing row cannot be locked: there the insert
decides who creates it.
-/

namespace BobbyBotique.Daily

inductive PuzzleStatus where
  | draft
  | ready
  | disabled
  deriving DecidableEq

/-- An item of a spawn sequence that has numbers in it. -/
structure RawSpawn where
  x : Int
  y : Int
  value : Int

/-- `normalize_spawn_sequence`; nothing stands for an item that is no spawn. -/
def normalizeSpawnSequence (items : List (Option RawSpawn)) : List Spawn :=
  items.filterMap fun item => item.map fun spawn =>
    ⟨min (boardSize - 1) spawn.x.toNat, min (boardSize - 1) spawn.y.toNat,
      if spawn.value = 2 ∨ spawn.value = 4 ∨ spawn.value = 8 then spawn.value.toNat else 2⟩

/-- `normalize_goal_type`. -/
def normalizeGoalType (value : Option String) : GoalType :=
  if (strip ((value.getD "tile").toList)).map Char.toLower = "total".toList then .total else .tile

/-- The arguments of `upsert_puzzle`; nothing stands for a status that is not one of the three. -/
structure PuzzleDraft where
  board : RawBoard
  goalType : Option String
  goalValue : Int
  spawnSequence : List (Option RawSpawn)
  seed : String
  parMoves : Int
  targetSeconds : Int
  status : Option PuzzleStatus
  solutionMoves : String

/-- The values that the statement stores. -/
def PuzzleDraft.gameplay (draft : PuzzleDraft) : Gameplay where
  board := .ofRaw draft.board
  goalType := normalizeGoalType draft.goalType
  goalValue := (max 8 draft.goalValue).toNat
  spawnSequence := normalizeSpawnSequence draft.spawnSequence
  seed := draft.seed
  parMoves := (max 1 draft.parMoves).toNat
  targetSeconds := (max 30 draft.targetSeconds).toNat
  solutionMoves := draft.solutionMoves

/-- A row of `daily_2048_puzzles`. -/
structure Puzzle2048 where
  gameplay : Gameplay
  status : PuzzleStatus
  revision : Nat

/-- The row that the insert creates. -/
def PuzzleDraft.create (draft : PuzzleDraft) : Puzzle2048 :=
  ⟨draft.gameplay, draft.status.getD .draft, 1⟩

abbrev UserId := Nat

/-- The rows of one date. -/
structure PuzzleStore where
  puzzle : Option Puzzle2048
  results : Dict UserId Result2048

namespace PuzzleStore

def empty : PuzzleStore := ⟨none, .empty⟩

def played (store : PuzzleStore) : Bool := !store.results.keys.isEmpty

/-- The revision that an editor has to expect. -/
def revision (store : PuzzleStore) : Nat :=
  match store.puzzle with
  | some puzzle => puzzle.revision
  | none => 0

end PuzzleStore

/-! ## The transactions -/

inductive PuzzleEdit where
  | upsert (draft : PuzzleDraft) (expectedRevision : Int)
  | setStatus (status : Option PuzzleStatus) (expectedRevision : Int)

def PuzzleEdit.expectedRevision : PuzzleEdit → Int
  | .upsert _ expected => expected
  | .setStatus _ expected => expected

/-- The row that an edit leaves when it finds a row, played or not; nothing when it raises. -/
def PuzzleEdit.apply (found : Option Puzzle2048) (played : Bool) : PuzzleEdit → Option Puzzle2048
  | .upsert draft expected =>
    match found with
    | none => if expected = 0 then some draft.create else none
    | some existing =>
      if expected ≠ existing.revision then none
      else if played = true ∧ existing.gameplay ≠ draft.gameplay then none
      else some ⟨draft.gameplay, draft.status.getD .draft, existing.revision + 1⟩
  | .setStatus status expected =>
    match status, found with
    | some status, some existing =>
      if status = .draft ∨ expected < 1 ∨ expected ≠ existing.revision then none
      else some { existing with status, revision := existing.revision + 1 }
    | _, _ => none

inductive PuzzleTxn where
  | edit (edit : PuzzleEdit)
  | start (user : UserId) (draft : PuzzleDraft)

/-- The insert of a result, which leaves an existing one as it is. -/
def PuzzleStore.join (store : PuzzleStore) (user : UserId) (puzzle : Puzzle2048) : PuzzleStore :=
  if store.results.contains user then store
  else { store with results := store.results.set user (.start puzzle.gameplay) }

/-- `start_puzzle` once it knows the row; a puzzle that is not ready rolls everything back. -/
def PuzzleStore.start (store : PuzzleStore) (user : UserId) (draft : PuzzleDraft) :
    Option Puzzle2048 → PuzzleStore
  | some current => if current.status = .ready then store.join user current else store
  | none =>
    if draft.create.status = .ready then
      { store with puzzle := some draft.create }.join user draft.create
    else store

namespace PuzzleTxn

def shared : PuzzleTxn → PuzzleStore → Bool
  | .edit _, _ => false
  | .start _ _, store => store.puzzle.isSome

def look : PuzzleTxn → PuzzleStore → Option Puzzle2048 × Bool
  | .edit _, store => (store.puzzle, store.played)
  | .start _ _, store => (store.puzzle, false)

def write : PuzzleTxn → Option Puzzle2048 × Bool → PuzzleStore → PuzzleStore
  | .edit change, (found, played), store =>
    match change.apply found played with
    | some puzzle => { store with puzzle := some puzzle }
    | none => store
  | .start user draft, (found, _), store => store.start user draft found

end PuzzleTxn

@[simp] theorem PuzzleStore.join_puzzle (store : PuzzleStore) (user : UserId)
    (puzzle : Puzzle2048) : (store.join user puzzle).puzzle = store.puzzle := by
  unfold PuzzleStore.join
  split <;> rfl

theorem PuzzleStore.start_puzzle_of_some (store : PuzzleStore) (user : UserId)
    (draft : PuzzleDraft) (current : Puzzle2048) :
    (store.start user draft (some current)).puzzle = store.puzzle := by
  dsimp only [PuzzleStore.start]
  split
  · exact store.join_puzzle user current
  · rfl

/-- Players do not disturb each other. -/
theorem PuzzleTxn.apart (first second : PuzzleTxn) (store : PuzzleStore)
    (mine : first.shared store = true) (other : second.shared store = true) :
    first.shared (second.write (second.look store) store) = true ∧
      first.look (second.write (second.look store) store) = first.look store := by
  cases second with
  | edit change => cases other
  | start user draft =>
    obtain ⟨current, found⟩ := Option.isSome_iff_exists.mp other
    have same : ((start user draft).write (store.puzzle, false) store).puzzle =
        store.puzzle := by
      dsimp only [write]
      rw [found, store.start_puzzle_of_some user draft current, found]
    cases first with
    | edit change => cases mine
    | start user draft =>
      dsimp only [shared, look] at mine ⊢
      rw [same]
      exact ⟨mine, rfl⟩

/-- The transactions on the rows of a date. -/
def puzzleLocking : Locking PuzzleStore PuzzleTxn (Option Puzzle2048 × Bool) :=
  ⟨PuzzleTxn.shared, PuzzleTxn.look, PuzzleTxn.write, PuzzleTxn.apart⟩

/-! ## What an edit does -/

/-- The edit is accepted in this store. -/
def PuzzleEdit.accepted (edit : PuzzleEdit) (store : PuzzleStore) : Bool :=
  (edit.apply store.puzzle store.played).isSome

theorem PuzzleEdit.apply_revision {edit : PuzzleEdit} {store : PuzzleStore} {played : Bool}
    {row : Puzzle2048} (applied : edit.apply store.puzzle played = some row) :
    edit.expectedRevision = store.revision ∧ row.revision = store.revision + 1 := by
  unfold PuzzleStore.revision
  cases edit with
  | upsert draft expected =>
    dsimp only [PuzzleEdit.apply] at applied
    cases found : store.puzzle with
    | none =>
      rw [found] at applied
      dsimp only at applied ⊢
      split at applied
      · next fresh =>
          cases applied
          exact ⟨fresh, rfl⟩
      · cases applied
    | some existing =>
      rw [found] at applied
      dsimp only at applied ⊢
      split at applied
      · cases applied
      · next expects =>
          split at applied
          · cases applied
          · cases applied
            exact ⟨not_not.mp expects, rfl⟩
  | setStatus status expected =>
    dsimp only [PuzzleEdit.apply] at applied
    split at applied
    · next status existing found =>
        split at applied
        · cases applied
        · next expects =>
            cases applied
            rw [found]
            exact ⟨not_not.mp (not_or.mp (not_or.mp expects).2).2, rfl⟩
    · cases applied

/-- A played puzzle keeps what its players see. -/
theorem PuzzleEdit.apply_gameplay {edit : PuzzleEdit} {existing row : Puzzle2048}
    (applied : edit.apply (some existing) true = some row) :
    row.gameplay = existing.gameplay := by
  cases edit with
  | upsert draft expected =>
    dsimp only [PuzzleEdit.apply] at applied
    split at applied
    · cases applied
    · split at applied
      · cases applied
      · next unchanged =>
          cases applied
          refine Eq.symm (not_not.mp fun differs => unchanged ⟨rfl, differs⟩)
  | setStatus status expected =>
    dsimp only [PuzzleEdit.apply] at applied
    split at applied
    · next status found same =>
        cases same
        split at applied
        · cases applied
        · cases applied
          rfl
    · cases applied

/-- An accepted edit counts the revision up by one; any other edit changes nothing. -/
structure Edited (edit : PuzzleEdit) (before after : PuzzleStore) : Prop where
  accepted : edit.accepted before = true → edit.expectedRevision = before.revision ∧
    after.revision = before.revision + 1 ∧ after.results = before.results
  refused : edit.accepted before = false → after = before
  stale : edit.expectedRevision ≠ before.revision → after = before

theorem edited_atomic (edit : PuzzleEdit) (store : PuzzleStore) :
    Edited edit store (puzzleLocking.atomic store (.edit edit)) := by
  dsimp only [Locking.atomic, puzzleLocking, PuzzleTxn.write, PuzzleTxn.look]
  cases applied : edit.apply store.puzzle store.played with
  | none =>
    constructor
    · intro accepted
      rw [PuzzleEdit.accepted, applied] at accepted
      cases accepted
    · exact fun _ => rfl
    · exact fun _ => rfl
  | some row =>
    obtain ⟨expects, counted⟩ := PuzzleEdit.apply_revision applied
    constructor
    · exact fun _ => ⟨expects, counted, rfl⟩
    · intro refused
      rw [PuzzleEdit.accepted, applied] at refused
      cases refused
    · exact fun other => absurd expects other

/-! ## A played puzzle -/

theorem PuzzleStore.played_iff (store : PuzzleStore) :
    store.played = true ↔ ∃ user result, store.results.get? user = some result :=
  store.results.keys_nonempty_iff

/-- Every player started from the board of the puzzle. -/
def PuzzleStore.Fair (store : PuzzleStore) : Prop :=
  ∀ user result, store.results.get? user = some result →
    ∃ puzzle, store.puzzle = some puzzle ∧ result.board = puzzle.gameplay.board

/-- Once played, a puzzle stays played and keeps what its players see. -/
def PuzzleStore.Frozen (before after : PuzzleStore) : Prop :=
  before.played = true → after.played = true ∧
    ∃ puzzle next, before.puzzle = some puzzle ∧ after.puzzle = some next ∧
      next.gameplay = puzzle.gameplay

namespace PuzzleStore

theorem fair_empty : empty.Fair := by
  intro user result found
  cases found

theorem Fair.puzzle {store : PuzzleStore} (fair : store.Fair) (played : store.played = true) :
    ∃ puzzle, store.puzzle = some puzzle := by
  obtain ⟨user, result, found⟩ := store.played_iff.mp played
  obtain ⟨puzzle, here, _⟩ := fair user result found
  exact ⟨puzzle, here⟩

theorem Fair.frozen_refl {store : PuzzleStore} (fair : store.Fair) : store.Frozen store := by
  intro played
  obtain ⟨puzzle, here⟩ := fair.puzzle played
  exact ⟨played, puzzle, puzzle, here, here, rfl⟩

theorem Frozen.trans {first middle last : PuzzleStore} (early : first.Frozen middle)
    (late : middle.Frozen last) : first.Frozen last := by
  intro played
  obtain ⟨still, puzzle, next, here, there, same⟩ := early played
  obtain ⟨always, puzzle', final, here', there', same'⟩ := late still
  cases there.symm.trans here'
  exact ⟨always, puzzle, final, here, there', same'.trans same⟩

theorem Fair.join {store : PuzzleStore} (fair : store.Fair) (user : UserId) {puzzle : Puzzle2048}
    (here : store.puzzle = some puzzle) :
    (store.join user puzzle).Fair ∧ store.Frozen (store.join user puzzle) := by
  unfold PuzzleStore.join
  split
  · exact ⟨fair, fair.frozen_refl⟩
  · constructor
    · intro other result found
      dsimp only at found ⊢
      rw [Dict.get?_set] at found
      split at found
      · cases found
        exact ⟨puzzle, here, rfl⟩
      · exact fair other result found
    · intro _
      refine ⟨(played_iff _).mpr ⟨user, _, Dict.get?_set_self _ _ _⟩, ?_⟩
      exact ⟨puzzle, puzzle, here, here, rfl⟩

theorem Fair.atomic {store : PuzzleStore} (fair : store.Fair) (txn : PuzzleTxn) :
    (puzzleLocking.atomic store txn).Fair ∧ store.Frozen (puzzleLocking.atomic store txn) := by
  cases txn with
  | edit edit =>
    dsimp only [Locking.atomic, puzzleLocking, PuzzleTxn.write, PuzzleTxn.look]
    cases applied : edit.apply store.puzzle store.played with
    | none => exact ⟨fair, fair.frozen_refl⟩
    | some row =>
      have keeps : ∀ puzzle, store.puzzle = some puzzle → store.played = true →
          row.gameplay = puzzle.gameplay := by
        intro puzzle here played
        rw [here, played] at applied
        exact PuzzleEdit.apply_gameplay applied
      constructor
      · intro user result found
        obtain ⟨puzzle, here, board⟩ := fair user result found
        have same := keeps puzzle here (store.played_iff.mpr ⟨user, result, found⟩)
        exact ⟨row, rfl, board.trans (congrArg Gameplay.board same.symm)⟩
      · intro played
        obtain ⟨puzzle, here⟩ := fair.puzzle played
        exact ⟨played, puzzle, row, here, rfl, keeps puzzle here played⟩
  | start user draft =>
    dsimp only [Locking.atomic, puzzleLocking, PuzzleTxn.write, PuzzleTxn.look]
    cases here : store.puzzle with
    | some current =>
      dsimp only [PuzzleStore.start]
      split
      · exact fair.join user here
      · exact ⟨fair, fair.frozen_refl⟩
    | none =>
      dsimp only [PuzzleStore.start]
      split
      · -- Nobody played a puzzle that is missing.
        have unplayed : ∀ other result, store.results.get? other = some result → False := by
          intro other result found
          obtain ⟨puzzle, there, _⟩ := fair other result found
          cases here.symm.trans there
        have created : ({ store with puzzle := some draft.create } : PuzzleStore).Fair :=
          fun other result found => (unplayed other result found).elim
        refine ⟨(created.join user rfl).1, fun played => ?_⟩
        obtain ⟨other, result, found⟩ := store.played_iff.mp played
        exact (unplayed other result found).elim
      · exact ⟨fair, fair.frozen_refl⟩

theorem Fair.run {store : PuzzleStore} (fair : store.Fair) (txns : List PuzzleTxn) :
    (Run.run puzzleLocking.atomic store txns).Fair ∧
      store.Frozen (Run.run puzzleLocking.atomic store txns) := by
  induction txns generalizing store with
  | nil => exact ⟨fair, fair.frozen_refl⟩
  | cons txn rest ih =>
    obtain ⟨still, frozen⟩ := fair.atomic txn
    obtain ⟨always, later⟩ := ih still
    exact ⟨always, frozen.trans later⟩

end PuzzleStore

/-- The state after a run from the empty rows. -/
def puzzleRun (labels : List (Locking.Label PuzzleTxn)) :
    Locking.State PuzzleStore PuzzleTxn (Option Puzzle2048 × Bool) :=
  puzzleLocking.reach .empty labels

theorem puzzleRun_fair (labels : List (Locking.Label PuzzleTxn)) :
    (puzzleRun labels).store.Fair := by
  rw [puzzleRun, Locking.reach_store]
  exact (PuzzleStore.fair_empty.run _).1

end BobbyBotique.Daily
