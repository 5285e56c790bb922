import BobbyBotique.Foundation.Run
import BobbyBotique.Foundation.Text
import Mathlib.Data.Rat.Defs
import Mathlib.Logic.Function.Basic

/-!
# Where classic games are kept

A classic game is written to Redis, and to a map of the process when that fails.  The map
holds the objects themselves, so a later change of an object is seen through it.
-/

namespace BobbyBotique.Games.Classic

abbrev Text := List Char

/-! ## Games -/

inductive GameStatus where
  | active
  | won
  | lost
deriving DecidableEq

def GameStatus.value : GameStatus → Text
  | .active => "active".toList
  | .won => "won".toList
  | .lost => "lost".toList

/-- `GameStatus(status)`, for the values that it has. -/
def GameStatus.ofValue? (value : Text) : Option GameStatus :=
  [GameStatus.active, .won, .lost].find? fun status => decide (status.value = value)

/-- The fields of a game, with its status as a member or as a text. -/
structure GameFields (Status : Type) where
  gameId : Text
  targetWord : Text
  category : Text
  lang : Text
  inlineMessageId : Text
  creatorId : Int
  guesserId : Option Int
  topicId : Text
  senseContext : Option Text
  attempts : List Text
  hasActivity : Bool
  maxAttempts : Int
  status : Status
  createdAt : Text
  bestScore : Rat
deriving DecidableEq

abbrev CrocodileGame := GameFields GameStatus

def GameFields.withStatus {Old New : Type} (status : New) (fields : GameFields Old) :
    GameFields New where
  gameId := fields.gameId
  targetWord := fields.targetWord
  category := fields.category
  lang := fields.lang
  inlineMessageId := fields.inlineMessageId
  creatorId := fields.creatorId
  guesserId := fields.guesserId
  topicId := fields.topicId
  senseContext := fields.senseContext
  attempts := fields.attempts
  hasActivity := fields.hasActivity
  maxAttempts := fields.maxAttempts
  status := status
  createdAt := fields.createdAt
  bestScore := fields.bestScore

/-- `_json_payload`. -/
def jsonPayload (game : CrocodileGame) : GameFields Text := game.withStatus game.status.value

/-- `CrocodileGame.from_json`. -/
def fromJson (payload : GameFields Text) : CrocodileGame :=
  payload.withStatus ((GameStatus.ofValue? payload.status).getD .active)

theorem fromJson_jsonPayload (game : CrocodileGame) : fromJson (jsonPayload game) = game := by
  have status : GameStatus.ofValue? game.status.value = some game.status := by
    cases game.status <;> decide
  have kept : (jsonPayload game).status = game.status.value := rfl
  rw [fromJson, kept, status]
  rfl

/-! ## Guesses -/

/-- What `judge_guess` says of a word. -/
structure Judgement where
  exactMatch : Bool
  score : Rat

/-- The status after a guess that is counted. -/
def statusAfter (game : CrocodileGame) (exactMatch : Bool) (attempts : Nat) : GameStatus :=
  if exactMatch then .won
  else if game.maxAttempts ≤ attempts then .lost
  else game.status

/-- The game that `process_guess` saves; an empty word is not judged, and without a
judgement the attempt is not counted. -/
def processGuess (game : CrocodileGame) (word : Text) (judged : Option Judgement) :
    Option CrocodileGame :=
  if strip word = [] then none
  else
    match judged with
    | none => some { game with hasActivity := true }
    | some judgement => some { game with
        hasActivity := true
        attempts := game.attempts ++ [strip word]
        bestScore := if game.bestScore < judgement.score then judgement.score
          else game.bestScore
        status := statusAfter game judgement.exactMatch (game.attempts.length + 1) }

/-- A game with other fields, of which its id is none. -/
def takeFields (game changed : CrocodileGame) : CrocodileGame :=
  { changed with gameId := game.gameId }

/-- The game that `surrender` deletes. -/
def surrendered (game : CrocodileGame) : CrocodileGame := { game with status := .lost }

/-! ## The two stores -/

def gameKeyPrefix : Text := "croc:game:".toList

def redisKey (gameId : Text) : Text := gameKeyPrefix ++ gameId

def gameTtlIdle : Nat := 14 * 24 * 60 * 60

def gameTtlActive : Nat := 2 * 24 * 60 * 60

/-- A value of Redis, with the seconds it is kept. -/
structure Entry where
  payload : GameFields Text
  ttl : Nat

/-- The objects of the process, Redis, and `_mem_games` by the places of its objects. -/
structure Store where
  games : List CrocodileGame
  redis : Text → Option Entry
  memory : List (Text × Nat)

def memMax : Nat := 64

/-- The assignment of a key in a dict, which keeps the place of a key that is there. -/
def setItem (key : Text) (object : Nat) : List (Text × Nat) → List (Text × Nat)
  | [] => [(key, object)]
  | (other, held) :: rest =>
    if other = key then (key, object) :: rest else (other, held) :: setItem key object rest

def getItem (key : Text) : List (Text × Nat) → Option Nat
  | [] => none
  | (other, held) :: rest => if other = key then some held else getItem key rest

namespace Store

/-- `_mem_put`: at the limit the oldest entry goes, even if the game has one of its own. -/
def memPut (store : Store) (gameId : Text) (object : Nat) : Store :=
  let kept := if memMax ≤ store.memory.length then store.memory.tail else store.memory
  { store with memory := setItem gameId object kept }

/-- `_mem_get`. -/
def memGet (store : Store) (gameId : Text) : Option Nat := getItem gameId store.memory

/-- `CrocodileGameRepository.save`; Redis answers or the call fails. -/
def save (store : Store) (object : Nat) (game : CrocodileGame) (answers : Bool) : Store :=
  if answers then
    let ttl := if game.guesserId.isSome then gameTtlActive else gameTtlIdle
    { store with
      redis := Function.update store.redis (redisKey game.gameId) (some ⟨jsonPayload game, ttl⟩) }
  else store.memPut game.gameId object

/-- `CrocodileGameRepository.delete`. -/
def delete (store : Store) (game : CrocodileGame) (answers : Bool) : Store :=
  if answers then
    { store with redis := Function.update store.redis (redisKey game.gameId) none }
  else store

/-- `load_game`: a copy from Redis, or the object of the process. -/
def loadGame (store : Store) (gameId : Text) (answers : Bool) : Option Nat × Store :=
  match if answers then store.redis (redisKey gameId) else none with
  | some entry =>
    (some store.games.length, { store with games := store.games ++ [fromJson entry.payload] })
  | none => (store.memGet gameId, store)

/-- The fields of an object are changed; its id stays. -/
def assign (store : Store) (object : Nat) (game : CrocodileGame) : Store :=
  { store with games := store.games.set object game }

end Store

/-! ## Runs -/

/-- What the process does; every call of Redis answers or fails. -/
inductive Step where
  | create (game : CrocodileGame)
  /-- The fields of a game are changed and the game is saved. -/
  | save (object : Nat) (changed : CrocodileGame) (answers : Bool)
  | guess (object : Nat) (word : Text) (judged : Option Judgement) (answers : Bool)
  | load (gameId : Text) (answers : Bool)
  | finalize (object : Nat) (answers : Bool)
  | surrender (object : Nat) (answers : Bool)

/-- The stores, with every game as it was last saved and not deleted since. -/
structure Session extends Store where
  saved : Text → Option CrocodileGame

namespace Session

def initial : Session := ⟨⟨[], fun _ => none, []⟩, fun _ => none⟩

/-- An object takes its new fields and is saved. -/
def keep (session : Session) (object : Nat) (game : CrocodileGame) (answers : Bool) : Session where
  toStore := (session.assign object game).save object game answers
  saved := Function.update session.saved game.gameId (some game)

/-- An object takes its new fields and is deleted. -/
def drop (session : Session) (object : Nat) (game : CrocodileGame) (answers : Bool) : Session where
  toStore := (session.assign object game).delete game answers
  saved := Function.update session.saved game.gameId none

/-- A step; one at an object that does not exist does nothing. -/
def step (session : Session) : Step → Session
  | .create game => { session with games := session.games ++ [game] }
  | .save object changed answers =>
    match session.games[object]? with
    | some game => session.keep object (takeFields game changed) answers
    | none => session
  | .guess object word judged answers =>
    match session.games[object]? with
    | some game =>
      match processGuess game word judged with
      | some changed => session.keep object changed answers
      | none => session
    | none => session
  | .load gameId answers => { session with toStore := (session.loadGame gameId answers).2 }
  | .finalize object answers =>
    match session.games[object]? with
    | some game => session.drop object game answers
    | none => session
  | .surrender object answers =>
    match session.games[object]? with
    | some game => session.drop object (surrendered game) answers
    | none => session

end Session

end BobbyBotique.Games.Classic
