import BobbyBotique.Foundation.Dict
import BobbyBotique.Foundation.Run
import Mathlib.Data.Rat.Defs
import Mathlib.Algebra.Order.Ring.Unbundled.Rat

/-!
# The guesses of a player

A guess reads the stored result and later writes the whole list of attempts
back; hints are counted by a statement of their own.  Nothing but the status
guards the write, so a guess that overtakes another one makes it disappear.
-/

namespace BobbyBotique.Daily

def dailyMaxAttempts : Nat := 6

inductive GuessStatus where
  | cold
  | warm
  | hot
  | exactMatch
  deriving DecidableEq

structure Attempt where
  word : String
  status : GuessStatus
  hint : String
  score : ℚ
  cached : Bool
  seq : Nat
  serverTimeMs : Nat
  deriving DecidableEq

inductive ResultStatus where
  | active
  | won
  | lost
  deriving DecidableEq

/-- A row of `crocodile_daily_results`. -/
structure GuessResult where
  status : ResultStatus
  attempts : List Attempt
  bestScore : ℚ
  usedHintsCount : Nat
  points : Nat
  shareGrid : String
  streakAfter : Nat
  deriving DecidableEq

/-- The row that `get_or_create_result` creates. -/
def GuessResult.fresh : GuessResult := ⟨.active, [], 0, 0, 0, "", 0⟩

/-- `compute_points`. -/
def computePoints (won : Bool) (attemptCount usedHintsCount : Nat) : Nat :=
  if won then max 200 (1000 - ((attemptCount - 1) * 120 + usedHintsCount * 100)) else 0

def GuessStatus.icon : GuessStatus → String
  | .cold => "🟥"
  | .warm => "🟨"
  | .hot => "🟧"
  | .exactMatch => "🟩"

/-- `build_share_grid`. -/
def buildShareGrid (attempts : List Attempt) (won : Bool) : String :=
  let grid := String.join (attempts.map fun attempt => attempt.status.icon)
  if grid = "" then if won then "🟩" else "⬛" else grid

/-- The row that the statement of `append_attempt_and_maybe_finish` leaves of an active one. -/
def appendAttempt (seen row : GuessResult) (attempt : Attempt) (previousStreak : Nat) :
    GuessResult :=
  let attempts := seen.attempts ++ [attempt]
  let won := attempt.status = .exactMatch
  let finished := won ∨ dailyMaxAttempts ≤ attempts.length
  { status :=
      if won then .won else if dailyMaxAttempts ≤ attempts.length then .lost else .active
    attempts
    bestScore := max seen.bestScore attempt.score
    usedHintsCount := row.usedHintsCount
    points :=
      if finished then computePoints (decide won) attempts.length seen.usedHintsCount
      else row.points
    shareGrid := if finished then buildShareGrid attempts (decide won) else row.shareGrid
    streakAfter := if finished then if won then previousStreak + 1 else 0 else row.streakAfter }

/-! ## The calls of a player -/

/-- A call between its two statements. -/
structure GuessCall where
  seen : GuessResult
  attempt : Attempt

/-- The stored result, the calls under way and the attempts whose calls stored them. -/
structure Guesser where
  row : Option GuessResult
  calls : Dict Nat GuessCall
  successes : List Attempt

namespace Guesser

def initial : Guesser := ⟨none, .empty, []⟩

inductive Label where
  | read (call : Nat) (attempt : Attempt)
  | write (call : Nat) (previousStreak : Nat)
  | hint

/-- One statement; a call that finds the result finished returns it. -/
def step (player : Guesser) : Label → Guesser
  | .read call attempt =>
    let row := player.row.getD .fresh
    { player with
      row := some row
      calls :=
        if row.status = .active then player.calls.set call ⟨row, attempt⟩ else player.calls }
  | .write call previousStreak =>
    match player.calls.get? call, player.row with
    | some ⟨seen, attempt⟩, some row =>
      if row.status = .active then
        ⟨some (appendAttempt seen row attempt previousStreak), player.calls.del call,
          player.successes ++ [attempt]⟩
      else { player with calls := player.calls.del call }
    | _, _ => player
  | .hint =>
    { player with
      row := player.row.map fun row =>
        if row.status = .active then { row with usedHintsCount := row.usedHintsCount + 1 }
        else row }

/-- What the stored result owes to the player. -/
structure Honest (row : GuessResult) (successes : List Attempt) : Prop where
  /-- Every attempt whose call succeeded is stored, and as often as it succeeded. -/
  stored : ∀ attempt, row.attempts.count attempt = successes.count attempt
  bounded : row.attempts.length ≤ dailyMaxAttempts
  won : row.status = .won ↔ ∃ last, row.attempts.getLast? = some last ∧ last.status = .exactMatch
  lost : row.status = .lost ↔ row.attempts.length = dailyMaxAttempts ∧
    ∀ attempt ∈ row.attempts, attempt.status ≠ .exactMatch
  points : row.status = .won →
    row.points = computePoints true row.attempts.length row.usedHintsCount

/-- The step keeps the result honest and a finished one as it is. -/
structure Upheld (before after : Guesser) : Prop where
  honest : ∀ row, after.row = some row → Honest row after.successes
  final : ∀ row, before.row = some row → row.status ≠ .active → after.row = some row

/-- Nothing that matters to the call has changed since it read the result. -/
def Fair (player : Guesser) : Label → Prop
  | .write call _ =>
    match player.calls.get? call, player.row with
    | some ⟨seen, attempt⟩, some row =>
      row.status = .active → row.attempts = seen.attempts ∧
          (attempt.status = .exactMatch →
            computePoints true (row.attempts.length + 1) row.usedHintsCount =
              computePoints true (row.attempts.length + 1) seen.usedHintsCount)
    | _, _ => True
  | _ => True

/-! ## Fair runs -/

/-- The attempts of an active result may go on. -/
structure Open (row : GuessResult) : Prop where
  missed : ∀ attempt ∈ row.attempts, attempt.status ≠ .exactMatch
  room : row.attempts.length < dailyMaxAttempts

structure Sound (player : Guesser) : Prop where
  honest : ∀ row, player.row = some row → Honest row player.successes
  active : ∀ row, player.row = some row → row.status = .active → Open row
  unplayed : player.row = none → player.successes = []
  calls : ∀ id call, player.calls.get? id = some call →
    ∃ row, player.row = some row ∧ call.seen.attempts <+: row.attempts

theorem sound_initial : Sound initial := by
  constructor
  · intro row found
    cases found
  · intro row found
    cases found
  · exact fun _ => rfl
  · intro id call found
    cases found

theorem honest_fresh : Honest .fresh [] := by
  constructor
  · exact fun _ => rfl
  · exact Nat.zero_le _
  · constructor
    · exact fun won => nomatch won
    · rintro ⟨last, found, _⟩
      cases found
  · constructor
    · exact fun lost => nomatch lost
    · rintro ⟨full, _⟩
      cases full
  · exact fun won => nomatch won

theorem open_fresh : Open .fresh :=
  ⟨fun attempt member => (nomatch member), by decide⟩

theorem getLast?_append_singleton {A : Type} (items : List A) (last : A) :
    (items ++ [last]).getLast? = some last := by
  simp

/-- An attempt appended to the attempts that are stored. -/
theorem honest_appendAttempt {seen row : GuessResult} {successes : List Attempt}
    {attempt : Attempt} (previousStreak : Nat) (honest : Honest row successes)
    (going : Open row) (same : row.attempts = seen.attempts)
    (hints : attempt.status = .exactMatch →
      computePoints true (row.attempts.length + 1) row.usedHintsCount =
        computePoints true (row.attempts.length + 1) seen.usedHintsCount) :
    Honest (appendAttempt seen row attempt previousStreak) (successes ++ [attempt]) ∧
      ((appendAttempt seen row attempt previousStreak).status = .active →
        Open (appendAttempt seen row attempt previousStreak)) := by
  have length : (seen.attempts ++ [attempt]).length = row.attempts.length + 1 := by
    rw [← same, List.length_append, List.length_singleton]
  have bounded : row.attempts.length + 1 ≤ dailyMaxAttempts := going.room
  have members : ∀ other ∈ seen.attempts ++ [attempt],
      other.status = .exactMatch → attempt.status = .exactMatch := by
    intro other member hit
    rw [← same] at member
    rcases List.mem_append.mp member with old | new
    · exact absurd hit (going.missed other old)
    · cases List.mem_singleton.mp new
      exact hit
  have stored : ∀ other, (seen.attempts ++ [attempt]).count other =
      (successes ++ [attempt]).count other := by
    intro other
    rw [← same, List.count_append, List.count_append, honest.stored]
  by_cases hit : attempt.status = .exactMatch
  · have won : appendAttempt seen row attempt previousStreak =
        { appendAttempt seen row attempt previousStreak with status := .won } := by
      simp [appendAttempt, hit]
    refine ⟨⟨stored, length.le.trans bounded, ?_, ?_, fun _ => ?_⟩, fun active => ?_⟩
    · rw [won]
      exact ⟨fun _ => ⟨attempt, getLast?_append_singleton _ _, hit⟩, fun _ => rfl⟩
    · rw [won]
      constructor
      · exact fun lost => nomatch lost
      · rintro ⟨_, none⟩
        exact absurd hit (none attempt (List.mem_append_right _ List.mem_cons_self))
    · have points := hints hit
      simp only [appendAttempt, hit, true_or, if_true, decide_true, length]
      exact points.symm
    · rw [won] at active
      cases active
  · have missed : ∀ other ∈ seen.attempts ++ [attempt], other.status ≠ .exactMatch :=
      fun other member same => hit (members other member same)
    have notWon : ¬∃ last, (seen.attempts ++ [attempt]).getLast? = some last ∧
        last.status = .exactMatch := by
      rintro ⟨last, found, exactly⟩
      rw [getLast?_append_singleton] at found
      cases found
      exact hit exactly
    by_cases full : dailyMaxAttempts ≤ (seen.attempts ++ [attempt]).length
    · have lost : (appendAttempt seen row attempt previousStreak).status = .lost := by
        simp only [appendAttempt, hit, if_false, full, if_true]
      refine ⟨⟨stored, length.le.trans bounded, ?_, ?_, fun won => ?_⟩, fun active => ?_⟩
      · rw [lost]
        exact ⟨fun won => (nomatch won), fun won => absurd won notWon⟩
      · refine ⟨fun _ => ⟨?_, missed⟩, fun _ => lost⟩
        exact Nat.le_antisymm (length.le.trans bounded) full
      · cases lost.symm.trans won
      · cases lost.symm.trans active
    · have active : (appendAttempt seen row attempt previousStreak).status = .active := by
        simp only [appendAttempt, hit, if_false, full]
      refine ⟨⟨stored, length.le.trans bounded, ?_, ?_, fun won => ?_⟩, fun _ => ?_⟩
      · rw [active]
        exact ⟨fun won => (nomatch won), fun won => absurd won notWon⟩
      · rw [active]
        refine ⟨fun lost => (nomatch lost), fun lost => ?_⟩
        exact absurd lost.1.ge full
      · cases active.symm.trans won
      · exact ⟨missed, Nat.lt_of_not_le full⟩

/-- A read loses nothing: the row it makes is fresh. -/
theorem Sound.step_read {player : Guesser} (sound : Sound player)
    (call : Nat) (attempt : Attempt) :
    (Fair player (.read call attempt) ↔ Upheld player (player.step (.read call attempt))) ∧
      (Fair player (.read call attempt) → Sound (player.step (.read call attempt))) := by
  have honest : Honest (player.row.getD .fresh) player.successes := by
    cases found : player.row with
    | none =>
      rw [sound.unplayed found]
      exact honest_fresh
    | some row => exact sound.honest row found
  have going : (player.row.getD .fresh).status = .active → Open (player.row.getD .fresh) := by
    cases found : player.row with
    | none => exact fun _ => open_fresh
    | some row => exact sound.active row found
  refine ⟨⟨fun _ => ⟨?_, ?_⟩, fun _ => trivial⟩, fun _ => ⟨?_, ?_, ?_, ?_⟩⟩
  · intro row found
    cases found
    exact honest
  · intro row found _
    exact congrArg some (by rw [found, Option.getD_some])
  · intro row found
    cases found
    exact honest
  · intro row found
    cases found
    exact going
  · intro missing
    cases missing
  · intro id pending found
    refine ⟨_, rfl, ?_⟩
    dsimp only [Guesser.step] at found
    have earlier : ∀ other, player.calls.get? id = some other →
        other.seen.attempts <+: (player.row.getD .fresh).attempts := by
      intro other before
      obtain ⟨row, stored, grown⟩ := sound.calls id other before
      rw [stored]
      exact grown
    split at found
    · rw [Dict.get?_set] at found
      split at found
      · cases found
        exact List.prefix_refl _
      · exact earlier pending found
    · exact earlier pending found

/-- A hint counts itself only. -/
theorem Sound.step_hint {player : Guesser} (sound : Sound player) :
    (Fair player .hint ↔ Upheld player (player.step .hint)) ∧
      (Fair player .hint → Sound (player.step .hint)) := by
  have honest : ∀ row, (player.row.map fun row =>
      if row.status = .active then { row with usedHintsCount := row.usedHintsCount + 1 }
      else row) = some row →
        Honest row player.successes ∧ (row.status = .active → Open row) := by
    intro row found
    obtain ⟨before, stored, rfl⟩ := Option.map_eq_some_iff.mp found
    have owed := sound.honest before stored
    split
    · next active =>
        have going := sound.active before stored active
        refine ⟨⟨owed.stored, owed.bounded, owed.won, owed.lost, fun won => ?_⟩, fun _ => ?_⟩
        · cases active.symm.trans won
        · exact ⟨going.missed, going.room⟩
    · exact ⟨owed, sound.active before stored⟩
  refine ⟨⟨fun _ => ⟨?_, ?_⟩, fun _ => trivial⟩, fun _ => ⟨?_, ?_, ?_, ?_⟩⟩
  · exact fun row found => (honest row found).1
  · intro row found ended
    dsimp only [Guesser.step]
    rw [found, Option.map_some, if_neg ended]
  · exact fun row found => (honest row found).1
  · exact fun row found => (honest row found).2
  · intro missing
    exact sound.unplayed (Option.map_eq_none_iff.mp missing)
  · intro id call found
    obtain ⟨row, stored, grown⟩ := sound.calls id call found
    refine ⟨_, congrArg (Option.map _) stored, ?_⟩
    dsimp only
    split
    · exact grown
    · exact grown

/-- A write is fair exactly if the row is still what the call saw. -/
theorem Sound.step_write {player : Guesser} (sound : Sound player)
    (id previousStreak : Nat) :
    (Fair player (.write id previousStreak) ↔
        Upheld player (player.step (.write id previousStreak))) ∧
      (Fair player (.write id previousStreak) → Sound (player.step (.write id previousStreak))) := by
  cases called : player.calls.get? id with
  | none =>
    have same : player.step (.write id previousStreak) = player := by
      simp only [Guesser.step, called]
    rw [same]
    refine ⟨⟨fun _ => ⟨sound.honest, fun row found _ => found⟩, fun _ => ?_⟩, fun _ => sound⟩
    simp only [Fair, called]
  | some call =>
    obtain ⟨seen, attempt⟩ := call
    obtain ⟨row, stored, grown⟩ := sound.calls id _ called
    have owed := sound.honest row stored
    have others : ∀ other call, (player.calls.del id).get? other = some call →
        player.calls.get? other = some call := by
      intro other call found
      rw [Dict.get?_del] at found
      split at found
      · cases found
      · exact found
    by_cases active : row.status = .active
    · have next : player.step (.write id previousStreak) =
          ⟨some (appendAttempt seen row attempt previousStreak), player.calls.del id,
            player.successes ++ [attempt]⟩ := by
        simp only [Guesser.step, called, stored, active, if_true]
      have fair : Fair player (.write id previousStreak) ↔
          row.attempts = seen.attempts ∧ (attempt.status = .exactMatch →
            computePoints true (row.attempts.length + 1) row.usedHintsCount =
              computePoints true (row.attempts.length + 1) seen.usedHintsCount) := by
        simp only [Fair, called, stored, active, forall_const]
      rw [fair, next]
      refine ⟨⟨?_, ?_⟩, ?_⟩
      · rintro ⟨same, hints⟩
        constructor
        · intro after found
          cases found
          exact (honest_appendAttempt previousStreak owed (sound.active row stored active)
            same hints).1
        · intro before found ended
          cases stored.symm.trans found
          exact absurd active ended
      · intro upheld
        have after := upheld.honest _ rfl
        have same : row.attempts = seen.attempts := by
          -- The counts agree, so nothing stands behind what the call saw.
          have counted : ∀ other, seen.attempts.count other = row.attempts.count other := by
            intro other
            have total := after.stored other
            dsimp only [appendAttempt] at total
            rw [List.count_append, List.count_append] at total
            rw [owed.stored]
            exact Nat.add_right_cancel total
          exact (grown.eq_of_length (List.perm_iff_count.mpr counted).length_eq).symm
        refine ⟨same, fun hit => ?_⟩
        have points := after.points (by simp only [appendAttempt, hit, if_true])
        simp only [appendAttempt, hit, true_or, if_true, decide_true,
          List.length_append, List.length_singleton] at points
        rw [same]
        exact points.symm
      · rintro ⟨same, hints⟩
        obtain ⟨honest, going⟩ := honest_appendAttempt previousStreak owed
          (sound.active row stored active) same hints
        constructor
        · intro after found
          cases found
          exact honest
        · intro after found
          cases found
          exact going
        · intro missing
          cases missing
        · intro other call found
          obtain ⟨before, there, early⟩ := sound.calls other call (others other call found)
          cases stored.symm.trans there
          refine ⟨_, rfl, early.trans ?_⟩
          dsimp only [appendAttempt]
          rw [← same]
          exact List.prefix_append _ _
    · have next : player.step (.write id previousStreak) =
          { player with calls := player.calls.del id } := by
        simp only [Guesser.step, called, stored, active, if_false]
      rw [next]
      refine ⟨⟨fun _ => ⟨sound.honest, fun row found _ => found⟩, fun _ => ?_⟩, fun _ => ?_⟩
      · simp only [Fair, called, stored, active, false_implies]
      · exact ⟨sound.honest, sound.active, sound.unplayed,
          fun other call found => sound.calls other call (others other call found)⟩

/-- A fair step keeps everything, and an unfair one loses an attempt or miscounts points. -/
theorem Sound.step {player : Guesser} (sound : Sound player) (label : Label) :
    (Fair player label ↔ Upheld player (player.step label)) ∧
      (Fair player label → Sound (player.step label)) := by
  cases label with
  | read call attempt => exact sound.step_read call attempt
  | hint => exact sound.step_hint
  | write id previousStreak => exact sound.step_write id previousStreak

/-- A run upholds the result as long as its steps are fair. -/
theorem Sound.along_iff {player : Guesser} (sound : Sound player) (labels : List Label) :
    Run.Along Guesser.step (fun player label => Upheld player (player.step label)) player labels ↔
      Run.Along Guesser.step Fair player labels := by
  induction labels generalizing player with
  | nil => exact Iff.rfl
  | cons label rest ih =>
    obtain ⟨same, keeps⟩ := sound.step label
    constructor
    · rintro ⟨upheld, later⟩
      have fair := same.mpr upheld
      exact ⟨fair, (ih (keeps fair)).mp later⟩
    · rintro ⟨fair, later⟩
      exact ⟨same.mp fair, (ih (keeps fair)).mpr later⟩

/--
For every interleaving of guesses and hints of a player: no attempt is lost or
doubled, the status and the points are those of the stored attempts, and a
finished result stays as it is, in every state exactly when every write finds
the attempts that its call read and, with a winning guess, hints that cost what
they cost then.
-/
theorem guesses_upheld_iff (labels : List Label) :
    Run.Along step (fun player label => Upheld player (player.step label)) initial labels ↔
      Run.Along step Fair initial labels :=
  sound_initial.along_iff labels

/-- A miss, the first attempt of a call. -/
def miss (word : String) : Attempt := ⟨word, .cold, "", 0, false, 1, 0⟩

/-- Two tabs read the result before either of them writes. -/
def twoTabs : List Label :=
  [.read 1 (miss "жираф"), .read 2 (miss "пингвин"), .write 1 0, .write 2 0]

/-- The guess of the first tab is lost. -/
theorem guess_lost : ¬∀ labels,
    Run.Along step (fun player label => Upheld player (player.step label)) initial labels := by
  intro upheld
  have last := (upheld twoTabs).2.2.2.1
  have stored := (last.honest _ rfl).stored (miss "жираф")
  exact absurd stored (by decide +kernel)

end Guesser

end BobbyBotique.Daily
