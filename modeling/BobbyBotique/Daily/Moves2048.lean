import BobbyBotique.Daily.Game2048
import BobbyBotique.Foundation.Dict
import BobbyBotique.Foundation.Run

/-!
# The moves of a player

`process_move` reads the stored result in one transaction and writes what it
computed from it in another, and any number of calls of the player may be open
at once.  A result that still counts has been played from the starting board.
-/

namespace BobbyBotique.Daily

structure Spawn where
  x : Nat
  y : Nat
  value : Nat
  deriving DecidableEq

inductive GoalType where
  | tile
  | total
  deriving DecidableEq

/-- The fields of a puzzle that its players see. -/
structure Gameplay where
  board : Board
  goalType : GoalType
  goalValue : Nat
  spawnSequence : List Spawn
  seed : String
  parMoves : Nat
  targetSeconds : Nat
  solutionMoves : String
  deriving DecidableEq

structure SpawnOutcome where
  board : Board
  spawnIndex : Nat
  spawned : Option Spawn

/-- `_fallback_spawn`; the digest is a list of bytes. -/
def fallbackSpawn (sha256 : String → List Nat) (spawnIndex : Nat) (seed : String)
    (available : List (Nat × Nat)) : Spawn :=
  let digest := sha256 (seed ++ ":" ++ toString spawnIndex)
  let index := (digest.take 4).foldl (fun number byte => number * 256 + byte) 0
  let cell := available.getD (index % available.length) (0, 0)
  ⟨cell.1, cell.2, if digest.getD 4 0 % 10 = 0 then 4 else 2⟩

/-- `spawn_tile`. -/
def spawnTile (sha256 : String → List Nat) (board : Board) (spawnSequence : List Spawn)
    (spawnIndex : Nat) (seed : String) : SpawnOutcome :=
  let next := board.normalize
  let available := next.availableCells
  if available = [] then ⟨next, spawnIndex, none⟩
  else
    let candidate :=
      ((spawnSequence[spawnIndex]?).filter fun spawn =>
        available.contains (spawn.x, spawn.y)).getD
        (fallbackSpawn sha256 spawnIndex seed available)
    ⟨Board.grid fun x y =>
        if x = candidate.x ∧ y = candidate.y then candidate.value else next.cell x y,
      spawnIndex + 1, some candidate⟩

def movesAvailable (board : Board) : Bool :=
  board.normalize.availableCells != [] ||
    (List.range boardSize).any fun y => (List.range boardSize).any fun x =>
      (decide (x + 1 < boardSize) && board.normalize.cell (x + 1) y == board.normalize.cell x y) ||
        (decide (y + 1 < boardSize) && board.normalize.cell x (y + 1) == board.normalize.cell x y)

def goalReached (board : Board) (puzzle : Gameplay) : Bool :=
  match puzzle.goalType with
  | .total => decide (board.normalize.flatten.sum ≥ puzzle.goalValue)
  | .tile => board.normalize.flatten.any fun value => decide (value ≥ puzzle.goalValue)

def computeFinalScore (puzzle : Gameplay) (moves elapsedMs mergeScore : Nat) : Nat :=
  puzzle.goalValue * 10 + (max 30 puzzle.targetSeconds * 1000 - elapsedMs) / 100 +
    (puzzle.parMoves - moves) * 24 + min mergeScore (puzzle.goalValue * 4)

/-! ## The stored result -/

inductive PlayStatus where
  | active
  | won
  | lost
  deriving DecidableEq

/-- A row of `daily_2048_results`. -/
structure Result2048 where
  status : PlayStatus
  board : Board
  spawnIndex : Nat
  moves : Nat
  mergeScore : Nat
  elapsedMs : Nat
  finalScore : Nat
  recordable : Bool

def Result2048.start (puzzle : Gameplay) : Result2048 :=
  ⟨.active, puzzle.board, 0, 0, 0, 0, 0, true⟩

/-- A call of `process_move`; the clock shows the time since the result was started. -/
structure MoveCall where
  direction : Direction
  wallElapsedMs : Nat
  clientElapsedMs : Option Int
  clientBoardBefore : Option RawBoard
  clientBoardAfter : Option RawBoard

/-- `_resolve_elapsed_ms`. -/
def resolveElapsedMs (result : Result2048) (call : MoveCall) : Nat :=
  match call.clientElapsedMs with
  | none => max result.elapsedMs call.wallElapsedMs
  | some elapsed => min elapsed.toNat call.wallElapsedMs

/-- `_validated_client_move_outcome`. -/
def clientOutcome (call : MoveCall) : Option MoveOutcome :=
  match call.clientBoardBefore, call.clientBoardAfter with
  | some before, some after =>
    let outcome := applyMove (Board.ofRaw before) call.direction
    if outcome.moved = true ∧ outcome.board = Board.ofRaw after then some outcome else none
  | _, _ => none

/-- The ranked provenance of a move: its source board is the stored one. -/
def keepsRecord (result : Result2048) (call : MoveCall) : Bool :=
  result.recordable && ((clientOutcome call).isNone ||
      decide (call.clientBoardBefore.map Board.ofRaw = some result.board))

/-- What `process_move` writes after it has read an active result; nothing if nothing moved. -/
def computeMove (sha256 : String → List Nat) (puzzle : Gameplay) (result : Result2048)
    (call : MoveCall) : Option Result2048 :=
  let outcome := (clientOutcome call).getD (applyMove result.board call.direction)
  if outcome.moved then
    let spawned := spawnTile sha256 outcome.board puzzle.spawnSequence result.spawnIndex puzzle.seed
    let moves := result.moves + 1
    let mergeScore := result.mergeScore + outcome.gainedScore
    let elapsedMs := resolveElapsedMs result call
    let won := goalReached spawned.board puzzle
    let status :=
      if won then PlayStatus.won else if movesAvailable spawned.board then .active else .lost
    some ⟨status, spawned.board, spawned.spawnIndex, moves, mergeScore, elapsedMs,
      if won then computeFinalScore puzzle moves elapsedMs mergeScore else 0,
      keepsRecord result call⟩
  else none

/-- `update_result_after_move`: only an active row is written, and a record once lost stays lost. -/
def updateResult (row next : Result2048) : Result2048 :=
  if row.status = .active then
    { next with
      finalScore := if next.status = .won then next.finalScore else row.finalScore
      recordable := row.recordable && next.recordable }
  else row

/-- The row of a player, and what the open calls are about to write. -/
structure Player where
  row : Option Result2048
  calls : Dict Nat Result2048

namespace Player

def initial : Player := ⟨none, .empty⟩

inductive Label where
  | read (id : Nat) (call : MoveCall)
  | write (id : Nat)

/-- The read starts the puzzle for the player if there is no row yet. -/
def step (sha256 : String → List Nat) (puzzle : Gameplay) (player : Player) : Label → Player
  | .read id call =>
    let result := player.row.getD (.start puzzle)
    { row := some result
      calls :=
        if result.status = .active then
          match computeMove sha256 puzzle result call with
          | some next => player.calls.set id next
          | none => player.calls.del id
        else player.calls.del id }
  | .write id =>
    match player.calls.get? id with
    | none => player
    | some next =>
      { row := player.row.map fun row => updateResult row next
        calls := player.calls.del id }

end Player

/-! ## Provenance -/

/-- A board that so many legal moves and their tiles reach, with the sum of their gains. -/
inductive Played (sha256 : String → List Nat) (puzzle : Gameplay) : Board → Nat → Nat → Prop where
  | start : Played sha256 puzzle puzzle.board 0 0
  | move {board : Board} {moves score : Nat} (direction : Direction)
      (played : Played sha256 puzzle board moves score)
      (legal : (applyMove board direction).moved = true) :
      Played sha256 puzzle
        (spawnTile sha256 (applyMove board direction).board puzzle.spawnSequence moves
          puzzle.seed).board
        (moves + 1) (score + (applyMove board direction).gainedScore)

/-- A result that counts has been played from the starting board, one tile for each move. -/
def Ranked (sha256 : String → List Nat) (puzzle : Gameplay) (result : Result2048) : Prop :=
  result.recordable = true → result.spawnIndex = result.moves ∧
      Played sha256 puzzle result.board result.moves result.mergeScore

variable {sha256 : String → List Nat} {puzzle : Gameplay}

theorem ranked_start : Ranked sha256 puzzle (.start puzzle) :=
  fun _ => ⟨rfl, .start⟩

theorem applyMove_square (board : Board) (direction : Direction) :
    (applyMove board direction).board.Square := by
  have source : board.normalize.Square := Board.square_grid _
  unfold applyMove
  cases direction.vertical with
  | true => exact Board.square_grid _
  | false =>
    simp only [Bool.false_eq_true, if_false]
    constructor
    · simpa using source.1
    · intro row member
      rw [List.map_map] at member
      obtain ⟨before, inside, rfl⟩ := List.mem_map.mp member
      exact moveRow_length direction before

/-- After a move that changed the board the next tile is spawned. -/
theorem spawnTile_index {board : Board} {direction : Direction}
    (moved : (applyMove board direction).moved = true) (spawnSequence : List Spawn)
    (spawnIndex : Nat) (seed : String) :
    (spawnTile sha256 (applyMove board direction).board spawnSequence spawnIndex
      seed).spawnIndex = spawnIndex + 1 := by
  have room := applyMove_room moved
  rw [← Board.normalize_of_square (applyMove_square board direction)] at room
  simp only [spawnTile, if_neg room]

/-- The move of a client is a legal move of the board it was sent with. -/
theorem clientOutcome_eq_some {call : MoveCall} {outcome : MoveOutcome}
    (validated : clientOutcome call = some outcome) :
    ∃ before, call.clientBoardBefore.map Board.ofRaw = some before ∧
      outcome = applyMove before call.direction := by
  unfold clientOutcome at validated
  split at validated
  · next before after sent _ =>
      dsimp only at validated
      split at validated
      · cases validated
        exact ⟨Board.ofRaw before, by rw [sent]; rfl, rfl⟩
      · cases validated
  · cases validated

/-- What is computed from a ranked result is ranked. -/
theorem ranked_computeMove {result next : Result2048} {call : MoveCall}
    (ranked : Ranked sha256 puzzle result)
    (computed : computeMove sha256 puzzle result call = some next) :
    Ranked sha256 puzzle next := by
  unfold computeMove at computed
  dsimp only at computed
  split at computed
  · next moved =>
      cases computed
      intro recordable
      obtain ⟨counts, source⟩ := Bool.and_eq_true_iff.mp recordable
      obtain ⟨index, played⟩ := ranked counts
      have legal : (clientOutcome call).getD (applyMove result.board call.direction) =
          applyMove result.board call.direction := by
        cases validated : clientOutcome call with
        | none => rfl
        | some outcome =>
          obtain ⟨before, sent, rfl⟩ := clientOutcome_eq_some validated
          rw [validated, sent] at source
          have same : before = result.board := by simpa using source
          rw [same]
          rfl
      rw [legal] at moved ⊢
      dsimp only
      rw [index]
      exact ⟨spawnTile_index moved _ _ _, .move call.direction played moved⟩
  · cases computed

namespace Player

/-- The stored result and whatever is about to be written are ranked. -/
structure Sound (sha256 : String → List Nat) (puzzle : Gameplay) (player : Player) : Prop where
  row : ∀ result, player.row = some result → Ranked sha256 puzzle result
  calls : ∀ id next, player.calls.get? id = some next → Ranked sha256 puzzle next

theorem sound_initial : Sound sha256 puzzle initial where
  row := fun _ impossible => nomatch impossible
  calls := fun id next found => by
    rw [initial, Dict.get?_empty] at found
    cases found

theorem ranked_updateResult {row next : Result2048} (ranked : Ranked sha256 puzzle row)
    (computed : Ranked sha256 puzzle next) : Ranked sha256 puzzle (updateResult row next) := by
  unfold updateResult
  split
  · intro recordable
    exact computed (Bool.and_eq_true_iff.mp recordable).2
  · exact ranked

theorem Sound.step {player : Player} (sound : player.Sound sha256 puzzle) (label : Label) :
    (player.step sha256 puzzle label).Sound sha256 puzzle := by
  cases label with
  | read id call =>
    have result : Ranked sha256 puzzle (player.row.getD (.start puzzle)) := by
      cases stored : player.row with
      | none => exact ranked_start
      | some row => exact sound.row row stored
    have deleted : ∀ other next, (player.calls.del id).get? other = some next →
        Ranked sha256 puzzle next := by
      intro other next found
      rw [Dict.get?_del] at found
      split at found
      · cases found
      · exact sound.calls other next found
    dsimp only [Player.step]
    constructor
    · rintro _ ⟨⟩
      exact result
    · intro other next found
      dsimp only at found
      split at found
      · split at found
        · next written computed =>
            rw [Dict.get?_set] at found
            split at found
            · cases found
              exact ranked_computeMove result computed
            · exact sound.calls other next found
        · exact deleted other next found
      · exact deleted other next found
  | write id =>
    dsimp only [Player.step]
    split
    · exact sound
    · next written pending =>
        constructor
        · intro result stored
          obtain ⟨row, before, rfl⟩ := Option.map_eq_some_iff.mp stored
          exact ranked_updateResult (sound.row row before) (sound.calls id written pending)
        · intro other next found
          dsimp only at found
          rw [Dict.get?_del] at found
          split at found
          · cases found
          · exact sound.calls other next found

/-- What no move undoes: a lost record, and the end of the game. -/
def Settles (before after : Player) : Prop :=
  ∀ row, before.row = some row → ∃ next, after.row = some next ∧
    (row.recordable = false → next.recordable = false) ∧ (row.status ≠ .active → next = row)

theorem settles_refl (player : Player) : Settles player player :=
  fun row stored => ⟨row, stored, id, fun _ => rfl⟩

theorem Settles.trans {first middle last : Player} (early : Settles first middle)
    (late : Settles middle last) : Settles first last := by
  intro row stored
  obtain ⟨next, between, forged, ended⟩ := early row stored
  obtain ⟨final, later, forged', ended'⟩ := late next between
  refine ⟨final, later, fun lost => forged' (forged lost), fun ended'' => ?_⟩
  cases ended ended''
  exact ended' ended''

theorem settles_step (player : Player) (label : Label) :
    Settles player (player.step sha256 puzzle label) := by
  intro row stored
  cases label with
  | read id call =>
    exact ⟨row, by simp only [Player.step, stored, Option.getD_some], fun lost => lost,
      fun _ => rfl⟩
  | write id =>
    dsimp only [Player.step]
    split
    · exact ⟨row, stored, fun lost => lost, fun _ => rfl⟩
    · next next _ =>
        refine ⟨updateResult row next, by rw [stored]; rfl, ?_, ?_⟩
        · intro lost
          unfold updateResult
          split
          · rw [lost]
            rfl
          · exact lost
        · intro ended
          rw [updateResult, if_neg ended]

theorem settles_run (player : Player) (labels : List Label) :
    Settles player (Run.run (step sha256 puzzle) player labels) := by
  induction labels generalizing player with
  | nil => exact settles_refl player
  | cons label rest ih => exact (settles_step player label).trans (ih _)

/--
For every interleaving of the moves of a player: a stored result that counts was
played from the starting board by exactly its moves, each with its own tile, and
its score is the sum of their gains; in every later state a lost record stays
lost and an ended result is unchanged.
-/
theorem ranked_provenance (sha256 : String → List Nat) (puzzle : Gameplay)
    (labels further : List Label) :
    (∀ result, (Run.run (step sha256 puzzle) initial labels).row = some result →
        Ranked sha256 puzzle result) ∧
      Settles (Run.run (step sha256 puzzle) initial labels)
        (Run.run (step sha256 puzzle) initial (labels ++ further)) := by
  constructor
  · have sound : (Run.run (step sha256 puzzle) initial labels).Sound sha256 puzzle :=
      Run.run_keeps (Sound sha256 puzzle) (fun _ label sound => sound.step label) sound_initial
        labels
    exact sound.row
  · rw [Run.run_append]
    exact settles_run _ further

end Player

end BobbyBotique.Daily
