import BobbyBotique.Daily.Puzzle2048

/-!
# The preparation of a daily crocodile

One slot of a day has one row.  Whoever prepares it holds a ticket, which a
later ticket, an edit or a new word supersedes; a player shares the row and
finds it ready.  What a player saw is never written again.
-/

namespace BobbyBotique.Daily

abbrev Text := List Char

/-- A row of `crocodile_daily_puzzles`. -/
structure CrocPuzzle where
  targetWord : Text
  topic : Text
  lang : Text
  hints : List Text
  imagePrompt : Text
  imageFileId : Text
  imageModel : Text
  prepared : Bool
  contentRevision : Nat
  generationToken : Option Nat

structure PreparationTicket where
  expectedRevision : Int
  token : Nat
  deriving DecidableEq

/-- The fields that `_apply_preparation` may change, where they are given. -/
structure Changes where
  hints : Option (List Text) := none
  imagePrompt : Option Text := none
  imageFileId : Option Text := none
  imageModel : Option Text := none

/-- `btrim` of the database, which knows only the blank. -/
def btrim (text : Text) : Text :=
  ((text.dropWhile (· == ' ')).reverse.dropWhile (· == ' ')).reverse

variable (casefold : Text → Text)

def isTextReady (puzzle : CrocPuzzle) : Bool :=
  strip puzzle.targetWord != [] && puzzle.hints.length == 3 &&
    puzzle.hints.all (fun hint => strip hint != []) &&
    (puzzle.hints.map fun hint => casefold (strip hint)).dedup.length == 3

namespace Changes

/-- `replace(puzzle, **changes)`. -/
def replace (changes : Changes) (puzzle : CrocPuzzle) : CrocPuzzle :=
  { puzzle with
    hints := changes.hints.getD puzzle.hints
    imagePrompt := changes.imagePrompt.getD puzzle.imagePrompt
    imageFileId := changes.imageFileId.getD puzzle.imageFileId
    imageModel := changes.imageModel.getD puzzle.imageModel }

/-- The changes that a played puzzle refuses. -/
def disturbs (changes : Changes) (puzzle : CrocPuzzle) : Bool :=
  changes.hints.any (fun hints => puzzle.hints != hints) ||
    changes.imagePrompt.any (fun prompt =>
      strip puzzle.imagePrompt != [] || strip prompt == []) ||
    (strip puzzle.imageFileId != [] &&
      (changes.imageFileId.any (fun fileId => fileId != puzzle.imageFileId) ||
        changes.imageModel.any (fun model => model != puzzle.imageModel)))

/-- The guards that the statement itself has for a played puzzle. -/
def guarded (changes : Changes) (puzzle : CrocPuzzle) : Bool :=
  (changes.imagePrompt.isNone || btrim puzzle.imagePrompt == []) &&
    (changes.imageFileId.isNone || strip puzzle.imageFileId != [] || btrim puzzle.imageFileId == [])

end Changes

/-- `_apply_preparation`; nothing when it returns false. -/
def applyPreparation (ticket : PreparationTicket) (changes : Changes) (finish : Bool)
    (expectedFileId : Option Text) (puzzle : CrocPuzzle) (played : Bool) : Option CrocPuzzle :=
  if (puzzle.contentRevision : Int) ≠ ticket.expectedRevision ∨
      puzzle.generationToken ≠ some ticket.token then none
  else if expectedFileId.any (fun fileId => puzzle.imageFileId != fileId) then none
  else if played && changes.disturbs puzzle then none
  else if finish && !isTextReady casefold (changes.replace puzzle) then none
  else if played && !changes.guarded puzzle then none
  else some
    { changes.replace puzzle with
      prepared := finish
      generationToken := if finish then none else puzzle.generationToken }

/-- `_check_revision`. -/
def checkRevision (puzzle : Option CrocPuzzle) (played : Bool) (expectedRevision : Int)
    (editable : Bool) : Option CrocPuzzle :=
  puzzle.filter fun puzzle =>
    decide (1 ≤ expectedRevision ∧ (puzzle.contentRevision : Int) = expectedRevision) &&
      !(editable && played)

/-! ## The transactions of a slot -/

/-- A regeneration carries the word it settled on. -/
inductive SlotTxn where
  | beginPreparation (expectedRevision : Int)
  | applyPreparation (ticket : PreparationTicket) (changes : Changes) (finish : Bool)
      (expectedFileId : Option Text)
  | editPuzzle (expectedRevision : Int) (imagePrompt imageModel : Option Text)
  | regenerateWord (expectedRevision : Int) (word topic lang : Text)
  | startPuzzle (user : UserId)

namespace SlotTxn

def setPuzzleHints (ticket : PreparationTicket) (hints : List Text) : SlotTxn :=
  .applyPreparation ticket { hints } false none

def setPuzzleImagePrompt (ticket : PreparationTicket) (imagePrompt : Text)
    (imageModel : Option Text) : SlotTxn :=
  .applyPreparation ticket { imagePrompt, imageModel } false none

def setPuzzleImageAsset (ticket : PreparationTicket) (imageFileId imageModel : Text) : SlotTxn :=
  .applyPreparation ticket { imageFileId, imageModel } false none

def clearPuzzleImageAsset (ticket : PreparationTicket) (expectedFileId : Text) : SlotTxn :=
  .applyPreparation ticket { imageFileId := some [] } false (some expectedFileId)

def finishPreparation (ticket : PreparationTicket) (assets : Option Changes) : SlotTxn :=
  .applyPreparation ticket (assets.getD {}) true none

end SlotTxn

/-- The rows of one slot; no ticket has had the fresh token. -/
structure SlotStore where
  puzzle : Option CrocPuzzle
  results : Dict UserId Unit
  fresh : Nat

namespace SlotStore

def played (store : SlotStore) : Bool := !store.results.keys.isEmpty

def revision (store : SlotStore) : Nat :=
  match store.puzzle with
  | some puzzle => puzzle.contentRevision
  | none => 0

end SlotStore

namespace SlotTxn

/-- The row that a transaction leaves when it finds a row, played or not; nothing when refused. -/
def update (found : Option CrocPuzzle) (played : Bool) (fresh : Nat) : SlotTxn → Option CrocPuzzle
  | .beginPreparation expected =>
    (checkRevision found played expected false).bind fun puzzle =>
      if played && !isTextReady casefold puzzle then none
      else some { puzzle with generationToken := some fresh }
  | .applyPreparation ticket changes finish expectedFileId =>
    found.bind fun puzzle =>
      Daily.applyPreparation casefold ticket changes finish expectedFileId puzzle played
  | .editPuzzle expected imagePrompt imageModel =>
    (checkRevision found played expected true).map fun puzzle =>
      { puzzle with
        imagePrompt := imagePrompt.getD puzzle.imagePrompt
        imageModel := imageModel.getD puzzle.imageModel
        imageFileId := []
        prepared := false
        generationToken := none
        contentRevision := puzzle.contentRevision + 1 }
  | .regenerateWord expected word topic lang =>
    (checkRevision found played expected true).map fun puzzle =>
      { puzzle with
        targetWord := word
        topic
        lang
        hints := []
        imagePrompt := []
        imageFileId := []
        prepared := false
        generationToken := none
        contentRevision := puzzle.contentRevision + 1 }
  | .startPuzzle _ => found.filter (isTextReady casefold)

def shared : SlotTxn → SlotStore → Bool
  | .startPuzzle _, _ => true
  | _, _ => false

def look : SlotTxn → SlotStore → Option CrocPuzzle × Bool
  | .startPuzzle _, store => (store.puzzle, false)
  | _, store => (store.puzzle, store.played)

def write (txn : SlotTxn) (seen : Option CrocPuzzle × Bool) (store : SlotStore) : SlotStore :=
  match txn.update casefold seen.1 seen.2 store.fresh with
  | none => store
  | some puzzle =>
    match txn with
    | .startPuzzle user => { store with results := store.results.set user () }
    | .beginPreparation _ => { store with puzzle := some puzzle, fresh := store.fresh + 1 }
    | _ => { store with puzzle := some puzzle }

end SlotTxn

variable {casefold}

/-- Players do not disturb each other. -/
theorem SlotTxn.apart (first second : SlotTxn) (store : SlotStore)
    (mine : first.shared store = true) (other : second.shared store = true) :
    first.shared (second.write casefold (second.look store) store) = true ∧
      first.look (second.write casefold (second.look store) store) = first.look store := by
  cases second with
  | startPuzzle user =>
    have same : ((startPuzzle user).write casefold ((startPuzzle user).look store) store).puzzle =
        store.puzzle := by
      dsimp only [write]
      split <;> rfl
    cases first with
    | startPuzzle user => exact ⟨rfl, congrArg (·, false) same⟩
    | beginPreparation | applyPreparation | editPuzzle | regenerateWord => cases mine
  | beginPreparation | applyPreparation | editPuzzle | regenerateWord => cases other

variable (casefold) in
/-- The transactions on the rows of a slot. -/
def slotLocking : Locking SlotStore SlotTxn (Option CrocPuzzle × Bool) :=
  ⟨SlotTxn.shared, SlotTxn.look, SlotTxn.write casefold, SlotTxn.apart⟩

/-! ## What a transaction may change -/

/-- What players saw is the same: an image is only filled in where there was none. -/
structure Kept (before after : CrocPuzzle) : Prop where
  targetWord : after.targetWord = before.targetWord
  topic : after.topic = before.topic
  hints : after.hints = before.hints
  imagePrompt : strip before.imagePrompt ≠ [] → after.imagePrompt = before.imagePrompt
  imageFileId : strip before.imageFileId ≠ [] → after.imageFileId = before.imageFileId

theorem Kept.refl (puzzle : CrocPuzzle) : Kept puzzle puzzle :=
  ⟨rfl, rfl, rfl, fun _ => rfl, fun _ => rfl⟩

theorem Kept.trans {first middle last : CrocPuzzle} (early : Kept first middle)
    (late : Kept middle last) : Kept first last := by
  constructor
  · exact late.targetWord.trans early.targetWord
  · exact late.topic.trans early.topic
  · exact late.hints.trans early.hints
  · intro written
    have same := early.imagePrompt written
    exact (late.imagePrompt (same ▸ written)).trans same
  · intro written
    have same := early.imageFileId written
    exact (late.imageFileId (same ▸ written)).trans same

theorem Changes.kept {changes : Changes} {puzzle : CrocPuzzle}
    (undisturbed : changes.disturbs puzzle = false) : Kept puzzle (changes.replace puzzle) := by
  simp only [disturbs, Bool.or_eq_false_iff, Bool.and_eq_false_iff] at undisturbed
  obtain ⟨⟨hints, prompt⟩, file⟩ := undisturbed
  constructor
  · rfl
  · rfl
  · dsimp only [replace]
    cases given : changes.hints with
    | none => rfl
    | some value =>
      rw [given] at hints
      exact (by simpa using hints : puzzle.hints = value).symm
  · intro written
    dsimp only [replace]
    cases given : changes.imagePrompt with
    | none => rfl
    | some value =>
      rw [given] at prompt
      exact absurd (by simpa using prompt : strip puzzle.imagePrompt = [] ∧ _).1 written
  · intro written
    dsimp only [replace]
    cases given : changes.imageFileId with
    | none => rfl
    | some value =>
      rw [given] at file
      rcases file with blank | same
      · exact absurd (by simpa using blank) written
      · exact (by simpa using same.1 : value = puzzle.imageFileId)

theorem applyPreparation_spec {ticket : PreparationTicket} {changes : Changes} {finish : Bool}
    {expectedFileId : Option Text} {puzzle next : CrocPuzzle} {played : Bool}
    (applied : applyPreparation casefold ticket changes finish expectedFileId puzzle played =
      some next) :
    puzzle.generationToken = some ticket.token ∧ next.contentRevision = puzzle.contentRevision ∧
      (next.generationToken = none ∨ next.generationToken = puzzle.generationToken) ∧
      (played = true → Kept puzzle next) := by
  unfold applyPreparation at applied
  split at applied
  · cases applied
  · next fences =>
      split at applied
      · cases applied
      · split at applied
        · cases applied
        · next undisturbed =>
            split at applied
            · cases applied
            · split at applied
              · cases applied
              · cases applied
                refine ⟨not_not.mp (not_or.mp fences).2, rfl, ?_, fun played => ?_⟩
                · cases finish
                  · exact .inr rfl
                  · exact .inl rfl
                · rw [played, Bool.true_and, Bool.not_eq_true] at undisturbed
                  have kept := Changes.kept undisturbed
                  exact ⟨kept.targetWord, kept.topic, kept.hints, kept.imagePrompt,
                    kept.imageFileId⟩

theorem checkRevision_spec {found : Option CrocPuzzle} {played editable : Bool} {expected : Int}
    {puzzle : CrocPuzzle} (checked : checkRevision found played expected editable = some puzzle) :
    found = some puzzle ∧ (editable && played) = false := by
  obtain ⟨same, allowed⟩ := Option.filter_eq_some_iff.mp checked
  rw [Bool.and_eq_true, Bool.not_eq_true'] at allowed
  exact ⟨same, allowed.2⟩

namespace SlotTxn

/-- The transactions after which an older ticket is worth nothing. -/
def superseding : SlotTxn → Bool
  | .beginPreparation _ | .editPuzzle _ _ _ | .regenerateWord _ _ _ _ => true
  | _ => false

/-- What an accepted transaction keeps of the row it found. -/
structure Updated (txn : SlotTxn) (row next : CrocPuzzle) (played : Bool) (fresh : Nat) :
    Prop where
  revision : row.contentRevision ≤ next.contentRevision
  kept : played = true → Kept row next
  token : ∀ token, next.generationToken = some token →
    token = fresh ∨ (txn.superseding = false ∧ row.generationToken = some token)

theorem update_spec {txn : SlotTxn} {found : Option CrocPuzzle} {played : Bool} {fresh : Nat}
    {next : CrocPuzzle} (updated : txn.update casefold found played fresh = some next) :
    ∃ row, found = some row ∧ Updated txn row next played fresh := by
  cases txn with
  | beginPreparation expected =>
    obtain ⟨row, checked, rest⟩ := Option.bind_eq_some_iff.mp updated
    refine ⟨row, (checkRevision_spec checked).1, ?_⟩
    split at rest
    · cases rest
    · cases rest
      constructor
      · exact le_refl _
      · exact fun _ => ⟨rfl, rfl, rfl, fun _ => rfl, fun _ => rfl⟩
      · intro token same
        exact .inl (Option.some.inj same).symm
  | applyPreparation ticket changes finish expectedFileId =>
    obtain ⟨row, same, applied⟩ := Option.bind_eq_some_iff.mp updated
    obtain ⟨_, revision, token, kept⟩ := applyPreparation_spec applied
    refine ⟨row, same, le_of_eq revision.symm, kept, fun value held => .inr ⟨rfl, ?_⟩⟩
    rcases token with dropped | same
    · cases held.symm.trans dropped
    · exact same.symm.trans held
  | editPuzzle expected imagePrompt imageModel =>
    obtain ⟨row, checked, rfl⟩ := Option.map_eq_some_iff.mp updated
    obtain ⟨same, unplayed⟩ := checkRevision_spec checked
    refine ⟨row, same, Nat.le_succ _, fun played => ?_, fun token held => nomatch held⟩
    exact absurd (played.symm.trans unplayed) Bool.noConfusion
  | regenerateWord expected word topic lang =>
    obtain ⟨row, checked, rfl⟩ := Option.map_eq_some_iff.mp updated
    obtain ⟨same, unplayed⟩ := checkRevision_spec checked
    refine ⟨row, same, Nat.le_succ _, fun played => ?_, fun token held => nomatch held⟩
    exact absurd (played.symm.trans unplayed) Bool.noConfusion
  | startPuzzle user =>
    obtain ⟨same, _⟩ := Option.filter_eq_some_iff.mp updated
    exact ⟨next, same, le_refl _, fun _ => .refl _, fun token held => .inr ⟨rfl, held⟩⟩

end SlotTxn

/-! ## Runs of a slot -/

namespace SlotStore

variable (casefold) in
/-- The transaction is not refused in this store. -/
def accepts (store : SlotStore) (txn : SlotTxn) : Bool :=
  (txn.update casefold (txn.look store).1 (txn.look store).2 store.fresh).isSome

variable (casefold) in
/-- The ticket that `begin_preparation` returns. -/
def issues (store : SlotStore) (expectedRevision : Int) : Option PreparationTicket :=
  if store.accepts casefold (.beginPreparation expectedRevision) then
    some ⟨expectedRevision, store.fresh⟩ else none

variable (casefold) in
/-- The transaction supersedes the tickets issued before it. -/
def supersedes (store : SlotStore) (txn : SlotTxn) : Bool :=
  txn.superseding && store.accepts casefold txn

/-- No ticket with this token can write any more. -/
structure Dead (token : Nat) (store : SlotStore) : Prop where
  used : token < store.fresh
  gone : ∀ puzzle, store.puzzle = some puzzle → puzzle.generationToken ≠ some token

/-- Once played, a slot stays played and keeps what its players saw. -/
def Frozen (before after : SlotStore) : Prop :=
  before.played = true → after.played = true ∧
    ∀ puzzle, before.puzzle = some puzzle → ∃ next, after.puzzle = some next ∧ Kept puzzle next

end SlotStore

theorem slot_refused {store : SlotStore} {txn : SlotTxn}
    (refused : store.accepts casefold txn = false) :
    (slotLocking casefold).atomic store txn = store := by
  dsimp only [Locking.atomic, slotLocking, SlotTxn.write]
  rw [Option.isSome_eq_false_iff.mp refused |> Option.isNone_iff_eq_none.mp]

/-- A transaction is refused, or a player starts, or the row is updated. -/
theorem slot_cases (casefold : Text → Text) (store : SlotStore) (txn : SlotTxn) :
    (store.accepts casefold txn = false ∧ (slotLocking casefold).atomic store txn = store) ∨
      (∃ user, txn = .startPuzzle user ∧ (slotLocking casefold).atomic store txn =
        { store with results := store.results.set user () }) ∨
      ∃ row next fresh, store.puzzle = some row ∧
        SlotTxn.Updated txn row next store.played store.fresh ∧ store.fresh ≤ fresh ∧
        (∀ expected, txn = .beginPreparation expected → store.fresh < fresh) ∧
        (slotLocking casefold).atomic store txn = { store with puzzle := some next, fresh } := by
  dsimp only [Locking.atomic, slotLocking, SlotTxn.write, SlotStore.accepts]
  cases updated : txn.update casefold (txn.look store).1 (txn.look store).2 store.fresh with
  | none => exact .inl ⟨rfl, rfl⟩
  | some next =>
    obtain ⟨row, found, change⟩ := SlotTxn.update_spec updated
    refine .inr ?_
    cases txn with
    | startPuzzle user => exact .inl ⟨user, rfl, rfl⟩
    | beginPreparation expected =>
      exact .inr ⟨row, next, store.fresh + 1, found, change, Nat.le_succ _,
        fun _ _ => Nat.lt_succ_self _, rfl⟩
    | applyPreparation ticket changes finish expectedFileId
    | editPuzzle expected imagePrompt imageModel | regenerateWord expected word topic lang =>
      refine .inr ⟨row, next, store.fresh, found, change, le_refl _, ?_, rfl⟩
      intro _ other
      cases other

namespace SlotStore

theorem fresh_atomic (store : SlotStore) (txn : SlotTxn) :
    store.fresh ≤ ((slotLocking casefold).atomic store txn).fresh := by
  rcases slot_cases casefold store txn with ⟨_, same⟩ | ⟨_, _, same⟩ |
    ⟨row, next, fresh, _, _, later, _, same⟩
  · rw [same]
  · rw [same]
  · rw [same]
    exact later

theorem revision_atomic (store : SlotStore) (txn : SlotTxn) :
    store.revision ≤ ((slotLocking casefold).atomic store txn).revision := by
  rcases slot_cases casefold store txn with ⟨_, same⟩ | ⟨_, _, same⟩ |
    ⟨row, next, fresh, found, change, _, _, same⟩
  · rw [same]
  · rw [same]
    exact le_refl store.revision
  · rw [same, SlotStore.revision, found]
    exact change.revision

theorem Dead.atomic {token : Nat} {store : SlotStore} (dead : Dead token store) (txn : SlotTxn) :
    Dead token ((slotLocking casefold).atomic store txn) := by
  rcases slot_cases casefold store txn with ⟨_, same⟩ | ⟨_, _, same⟩ |
    ⟨row, next, fresh, found, change, later, _, same⟩
  · rw [same]
    exact dead
  · rw [same]
    exact ⟨dead.used, dead.gone⟩
  · rw [same]
    refine ⟨dead.used.trans_le later, fun puzzle here held => ?_⟩
    cases here
    rcases change.token token held with spent | ⟨_, before⟩
    · exact absurd spent (Nat.ne_of_lt dead.used)
    · exact dead.gone row found before

/-- A superseding transaction ends every ticket before it. -/
theorem dead_of_supersedes {token : Nat} {store : SlotStore} (used : token < store.fresh)
    {txn : SlotTxn} (superseded : store.supersedes casefold txn = true) :
    Dead token ((slotLocking casefold).atomic store txn) := by
  obtain ⟨kind, accepted⟩ := Bool.and_eq_true_iff.mp superseded
  rcases slot_cases casefold store txn with ⟨refused, _⟩ | ⟨user, start, _⟩ |
    ⟨row, next, fresh, found, change, later, _, same⟩
  · exact absurd (accepted.symm.trans refused) Bool.noConfusion
  · rw [start] at kind
    cases kind
  · rw [same]
    refine ⟨used.trans_le later, fun puzzle here held => ?_⟩
    cases here
    rcases change.token token held with spent | ⟨other, _⟩
    · exact absurd spent (Nat.ne_of_lt used)
    · exact absurd (kind.symm.trans other) Bool.noConfusion

/-- After a superseding transaction of a run the ticket is dead at its end. -/
theorem along_or_dead (casefold : Text → Text) {token : Nat} {store : SlotStore}
    (used : token < store.fresh) (txns : List SlotTxn) :
    Run.Along (slotLocking casefold).atomic
        (fun store txn => store.supersedes casefold txn = false) store txns ∨
      Dead token (Run.run (slotLocking casefold).atomic store txns) := by
  induction txns generalizing store with
  | nil => exact .inl trivial
  | cons txn rest ih =>
    cases superseded : store.supersedes casefold txn with
    | true =>
      have dead := dead_of_supersedes used superseded
      exact .inr (Run.run_keeps (Dead token) (fun _ txn dead => dead.atomic txn) dead rest)
    | false =>
      rcases ih (used.trans_le (fresh_atomic store txn)) with along | dead
      · exact .inl ⟨superseded, along⟩
      · exact .inr dead

/-- A ticket that still writes has not been superseded since it was issued. -/
theorem ticket_current {store : SlotStore} {expected : Int} {ticket : PreparationTicket}
    (issued : store.issues casefold expected = some ticket) {txns : List SlotTxn}
    {changes : Changes} {finish : Bool} {expectedFileId : Option Text}
    (writes : (Run.run (slotLocking casefold).atomic store
      (.beginPreparation expected :: txns)).accepts casefold
        (.applyPreparation ticket changes finish expectedFileId) = true) :
    Run.Along (slotLocking casefold).atomic
      (fun store txn => store.supersedes casefold txn = false)
      ((slotLocking casefold).atomic store (.beginPreparation expected)) txns := by
  unfold issues at issued
  split at issued
  · next accepted =>
      cases issued
      have used : store.fresh <
          ((slotLocking casefold).atomic store (.beginPreparation expected)).fresh := by
        rcases slot_cases casefold store (.beginPreparation expected) with
          ⟨refused, _⟩ | ⟨user, start, _⟩ | ⟨row, next, fresh, _, _, _, spent, same⟩
        · exact absurd (accepted.symm.trans refused) Bool.noConfusion
        · cases start
        · rw [same]
          exact spent expected rfl
      rcases along_or_dead casefold used txns with along | dead
      · exact along
      · obtain ⟨next, updated⟩ := Option.isSome_iff_exists.mp writes
        obtain ⟨row, found, applied⟩ := Option.bind_eq_some_iff.mp updated
        exact absurd (applyPreparation_spec applied).1 (dead.gone row found)
  · cases issued

theorem played_iff (store : SlotStore) :
    store.played = true ↔ ∃ user, store.results.get? user = some () := by
  refine store.results.keys_nonempty_iff.trans ?_
  constructor
  · rintro ⟨user, _, found⟩
    exact ⟨user, found⟩
  · rintro ⟨user, found⟩
    exact ⟨user, (), found⟩

theorem Frozen.refl (store : SlotStore) : store.Frozen store :=
  fun played => ⟨played, fun puzzle here => ⟨puzzle, here, .refl puzzle⟩⟩

theorem Frozen.trans {first middle last : SlotStore} (early : first.Frozen middle)
    (late : middle.Frozen last) : first.Frozen last := by
  intro played
  obtain ⟨still, kept⟩ := early played
  obtain ⟨always, later⟩ := late still
  refine ⟨always, fun puzzle here => ?_⟩
  obtain ⟨next, between, same⟩ := kept puzzle here
  obtain ⟨final, there, same'⟩ := later next between
  exact ⟨final, there, same.trans same'⟩

theorem frozen_atomic (store : SlotStore) (txn : SlotTxn) :
    store.Frozen ((slotLocking casefold).atomic store txn) := by
  rcases slot_cases casefold store txn with ⟨_, same⟩ | ⟨user, _, same⟩ |
    ⟨row, next, fresh, found, change, _, _, same⟩
  · exact same.symm ▸ .refl store
  · intro _
    rw [same]
    refine ⟨(played_iff _).mpr ⟨user, Dict.get?_set_self _ _ _⟩, fun puzzle here => ?_⟩
    exact ⟨puzzle, here, .refl puzzle⟩
  · intro played
    rw [same]
    refine ⟨played, fun puzzle here => ?_⟩
    cases found.symm.trans here
    exact ⟨next, rfl, change.kept played⟩

theorem frozen_run (store : SlotStore) (txns : List SlotTxn) :
    store.Frozen (Run.run (slotLocking casefold).atomic store txns) ∧
      store.revision ≤ (Run.run (slotLocking casefold).atomic store txns).revision := by
  induction txns generalizing store with
  | nil => exact ⟨.refl store, le_refl _⟩
  | cons txn rest ih =>
    obtain ⟨frozen, counted⟩ := ih ((slotLocking casefold).atomic store txn)
    exact ⟨(frozen_atomic store txn).trans frozen, (revision_atomic store txn).trans counted⟩

end SlotStore

/-- A word, and three hints that are not blank and differ. -/
structure Startable (puzzle : CrocPuzzle) : Prop where
  word : strip puzzle.targetWord ≠ []
  three : puzzle.hints.length = 3
  filled : ∀ hint ∈ puzzle.hints, strip hint ≠ []
  distinct : puzzle.hints.Nodup

theorem startable_of_isTextReady {puzzle : CrocPuzzle}
    (ready : isTextReady casefold puzzle = true) : Startable puzzle := by
  simp only [isTextReady, Bool.and_eq_true, bne_iff_ne, beq_iff_eq, List.all_eq_true] at ready
  obtain ⟨⟨⟨word, three⟩, filled⟩, differ⟩ := ready
  refine ⟨word, three, filled, ?_⟩
  have same : (puzzle.hints.map fun hint => casefold (strip hint)).dedup =
      puzzle.hints.map fun hint => casefold (strip hint) := by
    refine (List.dedup_sublist _).eq_of_length ?_
    rw [differ, List.length_map, three]
  exact List.Nodup.of_map _ (List.dedup_eq_self.mp same)

/--
For every interleaving of the transactions of a slot: a write through a ticket
is accepted only if nothing superseded the ticket since it was issued, a refused
transaction and a step without a commit change nothing; the revision never
falls; a player starts a puzzle with a word and three different hints; and what
players saw is never written again.
-/
theorem preparation_fenced (casefold : Text → Text) (store : SlotStore)
    (labels further : List (Locking.Label SlotTxn)) :
    (∀ before expected after ticket changes finish expectedFileId label,
        (slotLocking casefold).history (Locking.initial store) labels =
          before ++ .beginPreparation expected :: after →
        (Run.run (slotLocking casefold).atomic store before).issues casefold expected =
          some ticket →
        Locking.committed ((slotLocking casefold).reach store labels) label =
          [.applyPreparation ticket changes finish expectedFileId] →
        ((slotLocking casefold).reach store (labels ++ [label])).store =
            ((slotLocking casefold).reach store labels).store ∨
          Run.Along (slotLocking casefold).atomic
            (fun store txn => store.supersedes casefold txn = false)
            (Run.run (slotLocking casefold).atomic store (before ++ [.beginPreparation expected]))
            after) ∧
      (∀ label txn, Locking.committed ((slotLocking casefold).reach store labels) label = [txn] →
        ((slotLocking casefold).reach store labels).store.accepts casefold txn = false →
        ((slotLocking casefold).reach store (labels ++ [label])).store =
          ((slotLocking casefold).reach store labels).store) ∧
      ((slotLocking casefold).reach store labels).store.revision ≤
        ((slotLocking casefold).reach store (labels ++ further)).store.revision ∧
      (∀ label user, Locking.committed ((slotLocking casefold).reach store labels) label =
          [.startPuzzle user] →
        ((slotLocking casefold).reach store labels).store.accepts casefold (.startPuzzle user) =
          true →
        ∃ puzzle, ((slotLocking casefold).reach store labels).store.puzzle = some puzzle ∧
          Startable puzzle) ∧
      ((slotLocking casefold).reach store labels).store.Frozen
        ((slotLocking casefold).reach store (labels ++ further)).store := by
  have unchanged : ∀ label txn,
      Locking.committed ((slotLocking casefold).reach store labels) label = [txn] →
      ((slotLocking casefold).reach store labels).store.accepts casefold txn = false →
      ((slotLocking casefold).reach store (labels ++ [label])).store =
        ((slotLocking casefold).reach store labels).store := by
    intro label txn commits refused
    rw [(slotLocking casefold).reach_next_store store labels label, commits]
    exact slot_refused refused
  refine ⟨?_, unchanged, ?_, ?_, ?_⟩
  · intro before expected after ticket changes finish expectedFileId label past issued commits
    cases accepted : ((slotLocking casefold).reach store labels).store.accepts casefold
        (.applyPreparation ticket changes finish expectedFileId) with
    | false => exact .inl (unchanged label _ commits accepted)
    | true =>
      refine .inr ?_
      rw [Locking.reach_store, past, Run.run_append] at accepted
      rw [Run.run_append]
      exact SlotStore.ticket_current issued accepted
  · rw [(slotLocking casefold).reach_append_store store labels further]
    exact (SlotStore.frozen_run _ _).2
  · intro label user commits accepted
    obtain ⟨puzzle, ready⟩ := Option.isSome_iff_exists.mp accepted
    obtain ⟨found, ready⟩ := Option.filter_eq_some_iff.mp ready
    exact ⟨puzzle, found, startable_of_isTextReady ready⟩
  · rw [(slotLocking casefold).reach_append_store store labels further]
    exact (SlotStore.frozen_run _ _).1

end BobbyBotique.Daily
