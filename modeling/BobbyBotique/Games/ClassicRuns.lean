import BobbyBotique.Games.ClassicStore

/-!
# What a load returns

Along a run the loads return what was saved last exactly if no step sets the two stores
against each other: a save that fails beside an older copy in Redis, an entry of the map
that is given up although nothing else holds its game, a game that is deleted in one place
and stays in another, a load that fails when the map is behind.
-/

namespace BobbyBotique.Games.Classic

/-! ## Items -/

section Items

variable {key other : Text} {object : Nat} {items : List (Text × Nat)}

theorem getItem_setItem_same : getItem key (setItem key object items) = some object := by
  induction items with
  | nil => simp [setItem, getItem]
  | cons item rest ih =>
    obtain ⟨first, held⟩ := item
    by_cases same : first = key <;> simp [setItem, getItem, same, ih]

theorem getItem_setItem_other (apart : key ≠ other) :
    getItem other (setItem key object items) = getItem other items := by
  induction items with
  | nil => simp [setItem, getItem, apart]
  | cons item rest ih =>
    obtain ⟨first, held⟩ := item
    by_cases same : first = key
    · simp [setItem, getItem, same, apart]
    · simp [setItem, getItem, same, ih]

theorem getItem_mem (found : getItem key items = some object) : (key, object) ∈ items := by
  induction items with
  | nil => cases found
  | cons item rest ih =>
    obtain ⟨first, held⟩ := item
    rw [getItem] at found
    split at found
    · next same =>
        cases found
        rw [same]
        exact List.mem_cons_self
    · exact List.mem_cons_of_mem _ (ih found)

theorem getItem_none : getItem key items = none ↔ key ∉ items.map Prod.fst := by
  induction items with
  | nil => simp [getItem]
  | cons item rest ih =>
    obtain ⟨first, held⟩ := item
    by_cases same : first = key
    · simp [getItem, same]
    · have apart : ¬ key = first := fun equal => same equal.symm
      simp [getItem, same, ih, apart]

theorem setItem_mem {item : Text × Nat} (member : item ∈ setItem key object items) :
    item = (key, object) ∨ item ∈ items := by
  induction items with
  | nil => exact .inl (List.mem_singleton.mp member)
  | cons first rest ih =>
    obtain ⟨name, held⟩ := first
    rw [setItem] at member
    split at member
    · rcases List.mem_cons.mp member with here | later
      · exact .inl here
      · exact .inr (List.mem_cons_of_mem _ later)
    · rcases List.mem_cons.mp member with here | later
      · exact .inr (here ▸ List.mem_cons_self)
      · exact (ih later).imp id (List.mem_cons_of_mem _)

theorem setItem_nodup (nodup : (items.map Prod.fst).Nodup) :
    ((setItem key object items).map Prod.fst).Nodup := by
  induction items with
  | nil => simp [setItem]
  | cons first rest ih =>
    obtain ⟨name, held⟩ := first
    obtain ⟨fresh, nodup⟩ := List.nodup_cons.mp nodup
    rw [setItem]
    split
    · next same =>
        subst same
        exact List.nodup_cons.mpr ⟨fresh, nodup⟩
    · next apart =>
        refine List.nodup_cons.mpr ⟨?_, ih nodup⟩
        intro member
        obtain ⟨item, inside, named⟩ := List.mem_map.mp member
        rcases setItem_mem inside with rfl | old
        · exact apart named.symm
        · exact fresh (List.mem_map.mpr ⟨item, old, named⟩)

end Items

/-! ## What a session holds -/

theorem redisKey_inj {first second : Text} (same : redisKey first = redisKey second) :
    first = second := List.append_cancel_left same

namespace Session

/-- The game that `load_game` would return. -/
def value (session : Session) (gameId : Text) (answers : Bool) : Option CrocodileGame :=
  (session.loadGame gameId answers).1.bind ((session.loadGame gameId answers).2.games[·]?)

/-- The game that the map of the process holds. -/
def held (session : Session) (gameId : Text) : Option CrocodileGame :=
  (session.memGet gameId).bind (session.games[·]?)

/-- The keys of the map differ, and each is the id of its game. -/
structure Formed (session : Session) : Prop where
  nodup : (session.memory.map Prod.fst).Nodup
  named : ∀ item ∈ session.memory, ∃ game, session.games[item.2]? = some game ∧ game.gameId = item.1

/-- A load that Redis answers returns what was saved last. -/
def Faithful (session : Session) : Prop :=
  ∀ gameId, session.value gameId true = session.saved gameId

variable {session : Session} {gameId : Text} {object : Nat} {game old : CrocodileGame}
  {answers : Bool}

theorem value_failing : session.value gameId false = session.held gameId := rfl

theorem value_entry {entry : Entry} (found : session.redis (redisKey gameId) = some entry) :
    session.value gameId true = some (fromJson entry.payload) := by
  simp [value, Store.loadGame, found]

theorem value_held (absent : session.redis (redisKey gameId) = none) :
    session.value gameId true = session.held gameId := by
  simp [value, held, Store.loadGame, absent]

/-! ### A save -/

/-- A save that Redis does not answer meets no other copy there, and the oldest game of a
full map is the same one or one that Redis holds. -/
def KeepSafe (session : Session) (game : CrocodileGame) (answers : Bool) : Prop :=
  answers = false → (∀ entry, session.redis (redisKey game.gameId) = some entry →
      fromJson entry.payload = game) ∧
    (memMax ≤ session.memory.length → ∀ oldest ∈ session.memory.head?,
      oldest.1 = game.gameId ∨ (session.redis (redisKey oldest.1)).isSome)

/-- Another game of the map is not the object that is changed. -/
theorem Formed.held_assign (formed : session.Formed) (there : session.games[object]? = some old)
    (same : game.gameId = old.gameId) {other : Text} (apart : game.gameId ≠ other)
    {items : List (Text × Nat)} (within : ∀ item ∈ items, item ∈ session.memory) :
    (getItem other items).bind ((session.games.set object game)[·]?) =
      (getItem other items).bind (session.games[·]?) := by
  cases found : getItem other items with
  | none => rfl
  | some place =>
    obtain ⟨kept, stands, named⟩ := formed.named _ (within _ (getItem_mem found))
    have different : object ≠ place := by
      rintro rfl
      dsimp only at stands named
      rw [there] at stands
      cases stands
      exact apart (same.trans named)
    rw [Option.bind_some, Option.bind_some, List.getElem?_set_ne different]

theorem Formed.keep (formed : session.Formed) (there : session.games[object]? = some old)
    (same : game.gameId = old.gameId) : (session.keep object game answers).Formed := by
  obtain ⟨inside, -⟩ := List.getElem?_eq_some_iff.mp there
  have set : ∀ item ∈ session.memory, ∃ kept,
      (session.games.set object game)[item.2]? = some kept ∧ kept.gameId = item.1 := by
    intro item member
    obtain ⟨kept, stands, named⟩ := formed.named item member
    by_cases equal : object = item.2
    · rw [← equal] at stands ⊢
      rw [there] at stands
      cases stands
      exact ⟨game, List.getElem?_set_self inside, same.trans named⟩
    · exact ⟨kept, by rw [List.getElem?_set_ne equal]; exact stands, named⟩
  cases answers with
  | true => exact ⟨formed.nodup, set⟩
  | false =>
    have kept : (if memMax ≤ session.memory.length then session.memory.tail
        else session.memory).Sublist session.memory := by
      split
      · exact List.tail_sublist _
      · exact List.Sublist.refl _
    constructor
    · exact setItem_nodup (formed.nodup.sublist (kept.map _))
    · intro item member
      rcases setItem_mem member with rfl | older
      · exact ⟨game, List.getElem?_set_self inside, rfl⟩
      · exact set item (kept.subset older)

/-- A save that Redis answers is seen, and no other game changes. -/
theorem keep_answered (formed : session.Formed) (faithful : session.Faithful)
    (there : session.games[object]? = some old) (same : game.gameId = old.gameId) :
    (session.keep object game true).Faithful := by
  intro other
  by_cases equal : game.gameId = other
  · subst equal
    have entry : (session.keep object game true).redis (redisKey game.gameId) =
        some ⟨jsonPayload game, if game.guesserId.isSome then gameTtlActive else gameTtlIdle⟩ :=
      Function.update_self ..
    have saved : (session.keep object game true).saved game.gameId = some game :=
      Function.update_self ..
    rw [value_entry entry, saved, fromJson_jsonPayload]
  · have apart : redisKey other ≠ redisKey game.gameId := fun key => equal (redisKey_inj key).symm
    have entry : (session.keep object game true).redis (redisKey other) =
        session.redis (redisKey other) := Function.update_of_ne apart ..
    have saved : (session.keep object game true).saved other = session.saved other :=
      Function.update_of_ne (fun key => equal key.symm) ..
    have before := faithful other
    rw [saved, ← before]
    cases found : session.redis (redisKey other) with
    | some entry' => rw [value_entry (entry.trans found), value_entry found]
    | none =>
      rw [value_held (entry.trans found), value_held found]
      exact formed.held_assign there same equal fun item member => member

/-- The entries of the map that stay when another one is put. -/
def staying (session : Session) : List (Text × Nat) :=
  if memMax ≤ session.memory.length then session.memory.tail else session.memory

theorem staying_sublist (session : Session) : session.staying.Sublist session.memory := by
  unfold staying
  split
  · exact List.tail_sublist _
  · exact List.Sublist.refl _

/-- Only the oldest entry goes, and only at the limit. -/
theorem Formed.staying_getItem (formed : session.Formed) (other : Text) :
    getItem other session.staying = getItem other session.memory ∨
      getItem other session.staying = none ∧ memMax ≤ session.memory.length ∧
        ∃ oldest ∈ session.memory.head?, oldest.1 = other := by
  unfold staying
  split
  · next full =>
      cases items : session.memory with
      | nil => exact .inl rfl
      | cons oldest rest =>
        obtain ⟨key, place⟩ := oldest
        have nodup := formed.nodup
        rw [items] at nodup full
        by_cases same : key = other
        · subst same
          exact .inr ⟨getItem_none.mpr (List.nodup_cons.mp nodup).1, full, _, rfl, rfl⟩
        · exact .inl (by rw [List.tail_cons, getItem, if_neg same])
  · exact .inl rfl

theorem keep_failed_same (there : session.games[object]? = some old) :
    (session.keep object game false).held game.gameId = some game := by
  obtain ⟨inside, -⟩ := List.getElem?_eq_some_iff.mp there
  have found : (session.keep object game false).memGet game.gameId = some object :=
    getItem_setItem_same
  rw [held, found, Option.bind_some]
  exact List.getElem?_set_self inside

theorem keep_failed_other (formed : session.Formed) (there : session.games[object]? = some old)
    (same : game.gameId = old.gameId) {other : Text} (apart : game.gameId ≠ other) :
    (session.keep object game false).held other =
      (getItem other session.staying).bind (session.games[·]?) := by
  have found : (session.keep object game false).memGet other = getItem other session.staying :=
    getItem_setItem_other apart
  rw [held, found]
  exact formed.held_assign there same apart fun item member =>
    session.staying_sublist.subset member

/-- A save that Redis does not answer is seen, and every other game stays, exactly if
it is safe. -/
theorem keep_failed_iff (formed : session.Formed) (faithful : session.Faithful)
    (there : session.games[object]? = some old) (same : game.gameId = old.gameId) :
    (session.keep object game false).Faithful ↔ session.KeepSafe game false := by
  have redis : (session.keep object game false).redis = session.redis := rfl
  have saved : (session.keep object game false).saved game.gameId = some game :=
    Function.update_self ..
  have others : ∀ other, game.gameId ≠ other →
      (session.keep object game false).saved other = session.saved other :=
    fun other apart => Function.update_of_ne apart.symm ..
  constructor
  · intro after _
    constructor
    · intro entry found
      have here := after game.gameId
      rw [saved, value_entry (redis ▸ found)] at here
      exact Option.some.inj here
    · intro full oldest first
      by_contra unsafe'
      obtain ⟨apart, absent⟩ := not_or.mp unsafe'
      have absent : session.redis (redisKey oldest.1) = none := by simpa using absent
      have before := faithful oldest.1
      have there' := after oldest.1
      rw [others _ (fun equal => apart equal.symm), ← before, value_held (redis ▸ absent),
        value_held absent, keep_failed_other formed there same fun equal => apart equal.symm]
        at there'
      cases items : session.memory with
      | nil =>
        rw [items] at first
        cases first
      | cons head rest =>
        rw [items] at first
        cases first
        have nodup := formed.nodup
        rw [items] at nodup
        have gone : getItem oldest.1 session.staying = none := by
          rw [staying, if_pos full, items]
          exact getItem_none.mpr (List.nodup_cons.mp nodup).1
        obtain ⟨kept, stands, -⟩ := formed.named oldest (items ▸ List.mem_cons_self)
        have found : session.memGet oldest.1 = some oldest.2 := by
          rw [Store.memGet, items, getItem, if_pos rfl]
        rw [gone, held, found, Option.bind_some, stands] at there'
        cases there'
  · intro safe other
    obtain ⟨copy, room⟩ := safe rfl
    by_cases equal : game.gameId = other
    · subst equal
      rw [saved]
      cases found : session.redis (redisKey game.gameId) with
      | some entry => rw [value_entry (redis ▸ found), copy entry found]
      | none => rw [value_held (redis ▸ found), keep_failed_same there]
    · rw [others other equal, ← faithful other]
      cases found : session.redis (redisKey other) with
      | some entry => rw [value_entry (redis ▸ found), value_entry found]
      | none =>
        rw [value_held (redis ▸ found), value_held found, keep_failed_other formed there same equal]
        rcases formed.staying_getItem other with stays | ⟨-, full, oldest, first, named⟩
        · rw [stays]
          rfl
        · rcases room full oldest first with own | kept
          · exact absurd (own.symm.trans named) equal
          · rw [named, found] at kept
            cases kept

theorem keep_faithful_iff (formed : session.Formed) (faithful : session.Faithful)
    (there : session.games[object]? = some old) (same : game.gameId = old.gameId) :
    (session.keep object game answers).Faithful ↔ session.KeepSafe game answers := by
  cases answers with
  | true =>
    refine ⟨fun _ failing => ?_, fun _ => keep_answered formed faithful there same⟩
    cases failing
  | false => exact keep_failed_iff formed faithful there same

/-! ### A deletion -/

/-- The map has no entry of the game, and Redis has none that stays. -/
def DropSafe (session : Session) (game : CrocodileGame) (answers : Bool) : Prop :=
  game.gameId ∉ session.memory.map Prod.fst ∧
    (answers = false → session.redis (redisKey game.gameId) = none)

theorem Formed.drop (formed : session.Formed) (there : session.games[object]? = some old)
    (same : game.gameId = old.gameId) : (session.drop object game answers).Formed := by
  have kept := @Formed.keep session object game old true formed there same
  cases answers with
  | true | false => exact ⟨kept.nodup, kept.named⟩

theorem drop_other (formed : session.Formed) (faithful : session.Faithful)
    (there : session.games[object]? = some old) (same : game.gameId = old.gameId) {other : Text}
    (apart : game.gameId ≠ other) :
    (session.drop object game answers).value other true =
      (session.drop object game answers).saved other := by
  have key : redisKey other ≠ redisKey game.gameId := fun equal => apart (redisKey_inj equal).symm
  have entry : (session.drop object game answers).redis (redisKey other) =
      session.redis (redisKey other) := by
    cases answers with
    | true => exact Function.update_of_ne key ..
    | false => rfl
  have memory : (session.drop object game answers).held other = session.held other := by
    have whole := formed.held_assign there same apart fun item member => member
    cases answers with
    | true | false => exact whole
  have saved : (session.drop object game answers).saved other = session.saved other :=
    Function.update_of_ne apart.symm ..
  rw [saved, ← faithful other]
  cases found : session.redis (redisKey other) with
  | some entry' => rw [value_entry (entry.trans found), value_entry found]
  | none => rw [value_held (entry.trans found), value_held found, memory]

theorem drop_faithful_iff (formed : session.Formed) (faithful : session.Faithful)
    (there : session.games[object]? = some old) (same : game.gameId = old.gameId) :
    (session.drop object game answers).Faithful ↔ session.DropSafe game answers := by
  have after := @Formed.drop session object game old answers formed there same
  have saved : (session.drop object game answers).saved game.gameId = none :=
    Function.update_self ..
  have memory : (session.drop object game answers).memory = session.memory := by
    cases answers <;> rfl
  have redis : (session.drop object game answers).redis (redisKey game.gameId) = none ↔
      (answers = false → session.redis (redisKey game.gameId) = none) := by
    cases answers with
    | true =>
      have erased : (session.drop object game true).redis (redisKey game.gameId) = none :=
        Function.update_self ..
      simp [erased]
    | false => exact ⟨fun absent _ => absent, fun absent => absent rfl⟩
  have empty : (session.drop object game answers).value game.gameId true = none ↔
      session.DropSafe game answers := by
    unfold DropSafe
    rw [← redis, ← getItem_none]
    cases found : (session.drop object game answers).redis (redisKey game.gameId) with
    | some entry => simp [value_entry found]
    | none =>
      rw [value_held found, held, Store.memGet, memory]
      cases item : getItem game.gameId session.memory with
      | none => simp
      | some place =>
        obtain ⟨kept, stands, -⟩ := after.named _ (memory ▸ getItem_mem item)
        rw [Option.bind_some, stands]
        simp
  rw [← empty]
  constructor
  · intro faithful
    rw [faithful game.gameId, saved]
  · intro gone other
    by_cases equal : game.gameId = other
    · subst equal
      rw [gone, saved]
    · exact drop_other formed faithful there same equal

/-! ### Another object -/

/-- An object that is added is seen by nobody. -/
theorem Formed.held_append (formed : session.Formed) (gameId : Text) (game : CrocodileGame) :
    (session.memGet gameId).bind ((session.games ++ [game])[·]?) = session.held gameId := by
  rw [held]
  cases found : session.memGet gameId with
  | none => rfl
  | some place =>
    obtain ⟨kept, stands, -⟩ := formed.named _ (getItem_mem found)
    obtain ⟨inside, -⟩ := List.getElem?_eq_some_iff.mp stands
    rw [Option.bind_some, Option.bind_some, List.getElem?_append_left inside]

theorem Formed.append (formed : session.Formed) (game : CrocodileGame) :
    Formed { session with games := session.games ++ [game] } := by
  refine ⟨formed.nodup, fun item member => ?_⟩
  obtain ⟨kept, stands, named⟩ := formed.named item member
  obtain ⟨inside, -⟩ := List.getElem?_eq_some_iff.mp stands
  exact ⟨kept, (List.getElem?_append_left inside).trans stands, named⟩

theorem Formed.append_faithful (formed : session.Formed) (faithful : session.Faithful)
    (game : CrocodileGame) : Faithful { session with games := session.games ++ [game] } := by
  intro other
  have before := faithful other
  change _ = session.saved other
  rw [← before]
  cases found : session.redis (redisKey other) with
  | some entry =>
    rw [value_entry found]
    exact @value_entry { session with games := session.games ++ [game] } other entry found
  | none =>
    rw [value_held found]
    have value := @value_held { session with games := session.games ++ [game] } other found
    exact value.trans (formed.held_append other game)

/-- A load leaves the session or adds a copy. -/
theorem load_cases (gameId : Text) (answers : Bool) :
    session.step (.load gameId answers) = session ∨ ∃ game, session.step (.load gameId answers) =
        { session with games := session.games ++ [game] } := by
  cases found : (if answers then session.redis (redisKey gameId) else none) with
  | none =>
    refine .inl ?_
    simp [step, Store.loadGame, found]
  | some entry =>
    refine .inr ⟨fromJson entry.payload, ?_⟩
    simp [step, Store.loadGame, found]

/-! ## Steps and runs -/

/-- A load returns what was saved last, and so would a load that Redis answers
after the step, whatever the game. -/
structure LoadsSaved (session : Session) (label : Step) : Prop where
  returned : ∀ gameId answers, label = .load gameId answers →
    session.value gameId answers = session.saved gameId
  faithful : (session.step label).Faithful

/-- The steps that do not set the two stores against each other. -/
def Safe (session : Session) : Step → Prop
  | .create _ => True
  | .save object changed answers => ∀ game, session.games[object]? = some game →
      session.KeepSafe (takeFields game changed) answers
  | .guess object word judged answers => ∀ game, session.games[object]? = some game →
      ∀ changed, processGuess game word judged = some changed → session.KeepSafe changed answers
  | .load gameId answers => answers = false → ∀ entry,
      session.redis (redisKey gameId) = some entry →
        session.held gameId = some (fromJson entry.payload)
  | .finalize object answers => ∀ game, session.games[object]? = some game →
      session.DropSafe game answers
  | .surrender object answers => ∀ game, session.games[object]? = some game →
      session.DropSafe (surrendered game) answers

/-- A guess leaves the game its id. -/
theorem processGuess_gameId {word : Text} {judged : Option Judgement} {changed : CrocodileGame}
    (counted : processGuess game word judged = some changed) : changed.gameId = game.gameId := by
  unfold processGuess at counted
  split at counted
  · cases counted
  · split at counted
    · cases counted
      rfl
    · cases counted
      rfl

theorem Formed.step (formed : session.Formed) (label : Step) : (session.step label).Formed := by
  cases label with
  | create game => exact formed.append game
  | save object changed answers =>
    dsimp only [Session.step]
    split
    · next there => exact formed.keep there rfl
    · exact formed
  | guess object word judged answers =>
    dsimp only [Session.step]
    split
    · next there =>
        split
        · next counted => exact formed.keep there (processGuess_gameId counted)
        · exact formed
    · exact formed
  | load gameId answers =>
    rcases @load_cases session gameId answers with same | ⟨game, added⟩
    · rw [same]
      exact formed
    · rw [added]
      exact formed.append game
  | finalize object answers | surrender object answers =>
    dsimp only [Session.step]
    split
    · next there => exact formed.drop there rfl
    · exact formed

/-- A step that is no load returns nothing. -/
theorem loadsSaved_iff {label : Step} (other : ∀ gameId answers, label ≠ .load gameId answers) :
    session.LoadsSaved label ↔ (session.step label).Faithful :=
  ⟨fun loads => loads.faithful, fun faithful =>
    ⟨fun gameId answers same => absurd same (other gameId answers), faithful⟩⟩

theorem load_faithful (formed : session.Formed) (faithful : session.Faithful) :
    (session.step (.load gameId answers)).Faithful := by
  rcases @load_cases session gameId answers with same | ⟨game, added⟩
  · rw [same]
    exact faithful
  · rw [added]
    exact formed.append_faithful faithful game

/-- A load that fails is right if the map is not behind Redis. -/
theorem load_iff (formed : session.Formed) (faithful : session.Faithful) :
    session.LoadsSaved (.load gameId answers) ↔ session.Safe (.load gameId answers) := by
  have returned : session.LoadsSaved (.load gameId answers) ↔
      session.value gameId answers = session.saved gameId := by
    refine ⟨fun loads => loads.returned _ _ rfl, fun right => ⟨?_, load_faithful formed faithful⟩⟩
    intro other failing same
    cases same
    exact right
  rw [returned, Safe, ← faithful gameId]
  cases answers with
  | true => simp
  | false =>
    rw [value_failing]
    cases found : session.redis (redisKey gameId) with
    | some entry => simp [value_entry found]
    | none => simp [value_held found]

theorem step_iff (formed : session.Formed) (faithful : session.Faithful) (label : Step) :
    session.LoadsSaved label ↔ session.Safe label := by
  cases label with
  | create game =>
    rw [loadsSaved_iff (by simp)]
    exact ⟨fun _ => trivial, fun _ => formed.append_faithful faithful game⟩
  | save object changed answers =>
    rw [loadsSaved_iff (by simp)]
    dsimp only [Session.step, Safe]
    split
    · next game there =>
        have exact := @keep_faithful_iff session object (takeFields game changed) game answers
          formed faithful there rfl
        simp [there, exact]
    · next there => simp [there, faithful]
  | guess object word judged answers =>
    rw [loadsSaved_iff (by simp)]
    dsimp only [Session.step, Safe]
    split
    · next game there =>
        split
        · next changed counted =>
            rw [keep_faithful_iff formed faithful there (processGuess_gameId counted)]
            simp [there, counted]
        · next idle => simp [there, idle, faithful]
    · next there => simp [there, faithful]
  | load gameId answers => exact load_iff formed faithful
  | finalize object answers =>
    rw [loadsSaved_iff (by simp)]
    dsimp only [Session.step, Safe]
    split
    · next game there =>
        rw [drop_faithful_iff formed faithful there rfl]
        simp [there]
    · next there => simp [there, faithful]
  | surrender object answers =>
    rw [loadsSaved_iff (by simp)]
    dsimp only [Session.step, Safe]
    split
    · next game there =>
        have exact := @drop_faithful_iff session object (surrendered game) game answers
          formed faithful there rfl
        simp [there, exact]
    · next there => simp [there, faithful]

theorem initial_formed : initial.Formed := ⟨List.nodup_nil, fun item member => by cases member⟩

theorem initial_faithful : initial.Faithful := fun _ => rfl

/--
In a run every load returns what was saved last, and after every step a load that Redis
answers would do so, exactly if every step is safe.
-/
theorem loadsSaved_along_iff (steps : List Step) :
    Run.Along Session.step LoadsSaved initial steps ↔ Run.Along Session.step Safe initial steps :=
  Run.Along.exact (fun session => session.Formed ∧ session.Faithful)
    ⟨initial_formed, initial_faithful⟩
    (fun _ label good => step_iff good.1 good.2 label)
    (fun _ label good loads => ⟨good.1.step label, loads.faithful⟩)

/-! ## A save that fails -/

def wordGame : CrocodileGame where
  gameId := "g".toList
  targetWord := "cat".toList
  category := "animals".toList
  lang := "en".toList
  inlineMessageId := "m".toList
  creatorId := 1
  guesserId := some 2
  topicId := []
  senseContext := none
  attempts := []
  hasActivity := false
  maxAttempts := 10
  status := .active
  createdAt := "2026-01-01".toList
  bestScore := 0

/-- The save of a guess fails, and the next load has the older copy. -/
def lostGuess : List Step :=
  [.create wordGame, .save 0 wordGame true,
    .guess 0 "dog".toList (some ⟨false, 1 / 2⟩) false, .load wordGame.gameId true]

theorem lostGuess_not_loadsSaved : ¬ Run.Along Session.step LoadsSaved initial lostGuess := by
  rintro ⟨-, -, -, loads, -⟩
  have returned := loads.returned wordGame.gameId true rfl
  have attempts := congrArg (Option.map GameFields.attempts) returned
  have lost : (some [] : Option (List Text)) = some ["dog".toList] := attempts
  cases lost

end Session

end BobbyBotique.Games.Classic
