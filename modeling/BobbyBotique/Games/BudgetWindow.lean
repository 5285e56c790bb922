import BobbyBotique.Providers.MinuteWindow
import Mathlib.Data.List.TakeWhile

/-!
# Windows of the game AI budget

The minute of one model, with Redis and in a process without it.  Both scopes spend the
same window, each up to its own limit.  What was spent is kept beside the window.
-/

namespace BobbyBotique.Games.Budget

open Providers (Key)

/-- The two scopes of a lease. -/
inductive BudgetScope where
  | foreground
  | background
  deriving DecidableEq, Repr

/-- A slot that was spent. -/
structure Use where
  scope : BudgetScope
  token : Providers.Token
  instant : ℚ

/-! ## The Redis window -/

/-- `EXPIRE key 90`, which finds no key without members. -/
def touch (now : ℚ) (key : Key) : Key :=
  if key.slots.keys.isEmpty then key else key.expire now 90

/-- The keys of one model. -/
structure ModelWindow where
  own : BudgetScope → Key
  shared : Key
  spent : List Use

namespace ModelWindow

def absent : ModelWindow := ⟨fun _ => .absent, .absent, []⟩

def withKeys (window : ModelWindow) (scope : BudgetScope) (key shared : Key) : ModelWindow :=
  { window with own := Function.update window.own scope key, shared := shared }

/-- The shared key after the first loop of the script. -/
def sharedAt (window : ModelWindow) (now : ℚ) : Key := touch now (window.shared.counted now)

def ownAt (window : ModelWindow) (now : ℚ) (scope : BudgetScope) : Key :=
  touch now ((window.own scope).counted now)

/-- `_CONSUME_WINDOW_LUA`. -/
def consume (window : ModelWindow) (now : ℚ) (scope : BudgetScope) (limit : Nat)
    (token : Providers.Token) : ModelWindow × Bool :=
  let key := window.ownAt now scope
  let shared := window.sharedAt now
  if (shared.slots.get? token).isSome then (window.withKeys scope key shared, true)
  else if limit ≤ key.slots.keys.length ∨ limit ≤ shared.slots.keys.length then
    (window.withKeys scope key shared, false)
  else
    ({ window.withKeys scope ((key.zadd token now).expire now 90)
        ((shared.zadd token now).expire now 90) with
        spent := ⟨scope, token, now⟩ :: window.spent }, true)

end ModelWindow

/-- The uses by token and instant. -/
def dated (spent : List Use) : List ((Providers.Token × ℚ) × ℚ) :=
  spent.map fun use => ((use.token, use.instant), use.instant)

def ofBackground (spent : List Use) : List Use :=
  spent.filter fun use => use.scope = .background

/-! ### Members of the shared key -/

theorem touch_slots (now : ℚ) (key : Key) : (touch now key).slots = key.slots := by
  unfold touch
  split <;> rfl

theorem holds_expire {key : Key} {token : Providers.Token} {score bound now : ℚ}
    (holds : key.Holds token score bound) (le : bound ≤ now + 90) :
    (key.expire now 90).Holds token score bound :=
  ⟨holds.found, now + (90 : ℤ), rfl, by push_cast; exact le⟩

theorem holds_touch {key : Key} {token : Providers.Token} {score bound now : ℚ}
    (holds : key.Holds token score bound) (le : bound ≤ now + 90) :
    (touch now key).Holds token score bound := by
  unfold touch
  split
  · exact holds
  · exact holds_expire holds le

theorem items_set_le (slots : Dict Providers.Token ℚ) (token : Providers.Token) (score : ℚ) :
    (slots.set token score).items.length ≤ slots.keys.length + 1 := by
  have counted : (slots.set token score).items.length = (slots.set token score).keys.length := by
    simp only [Dict.items, Dict.keys, AList.keys, List.keys, List.length_map]
  rw [counted]
  exact slots.keys_set_le token score

namespace ModelWindow

variable {window : ModelWindow} {now : ℚ} {scope : BudgetScope} {limit total background : Nat}
  {token : Providers.Token}

/-- The window at an instant: a use of the last minute is a member of the shared key, and
no minute holds more uses than the limits. -/
structure Kept (total background : Nat) (now : ℚ) (window : ModelWindow) : Prop where
  dated : Window.Dated now (dated window.spent)
  stored : ∀ use ∈ window.spent, now < use.instant + 60 →
    window.shared.Holds use.token use.instant (use.instant + 60)
  known : ∀ token score, window.shared.slots.get? token = some score →
    ∃ use ∈ window.spent, use.token = token ∧ use.instant = score
  total : Window.Bounded 60 total (Budget.dated window.spent)
  background : Window.Bounded 60 background (Budget.dated (ofBackground window.spent))

theorem kept_absent (total background : Nat) (now : ℚ) : absent.Kept total background now := by
  refine ⟨Window.dated_nil now, nofun, fun token score found => ?_, Window.bounded_nil _ _,
    Window.bounded_nil _ _⟩
  cases (Dict.get?_empty token).symm.trans found

theorem Kept.later {later : ℚ} (kept : window.Kept total background now) (le : now ≤ later) :
    window.Kept total background later :=
  ⟨kept.dated.later le, fun use member young => kept.stored use member (le.trans_lt young),
    kept.known, kept.total, kept.background⟩

/-- What a script does. -/
theorem consume_cases :
    ((∃ score, (window.sharedAt now).slots.get? token = some score) ∧
        window.consume now scope limit token =
          (window.withKeys scope (window.ownAt now scope) (window.sharedAt now), true)) ∨
      (window.consume now scope limit token =
        (window.withKeys scope (window.ownAt now scope) (window.sharedAt now), false)) ∨
      ((window.sharedAt now).slots.get? token = none ∧
        (window.sharedAt now).slots.keys.length < limit ∧ window.consume now scope limit token =
            ({ window.withKeys scope (((window.ownAt now scope).zadd token now).expire now 90)
                (((window.sharedAt now).zadd token now).expire now 90) with
                spent := ⟨scope, token, now⟩ :: window.spent }, true)) := by
  unfold consume
  dsimp only
  split
  · next found => exact .inl ⟨Option.isSome_iff_exists.mp found, rfl⟩
  · next missing =>
      split
      · exact .inr (.inl rfl)
      · next room =>
          exact .inr (.inr ⟨Option.not_isSome_iff_eq_none.mp missing, by omega, rfl⟩)

/-- A young use stays in the shared key as a script goes on. -/
theorem Kept.touched (kept : window.Kept total background now) {use : Use}
    (member : use ∈ window.spent) (young : now < use.instant + 60) :
    (window.sharedAt now).Holds use.token use.instant (use.instant + 60) := by
  have past : use.instant ≤ now :=
    kept.dated.past ((use.token, use.instant), use.instant) (List.mem_map_of_mem member)
  refine holds_touch ?_ (by linarith)
  exact (kept.stored use member young).counted (by linarith) young.le

theorem Kept.touched_known (kept : window.Kept total background now) {score : ℚ}
    (found : (window.sharedAt now).slots.get? token = some score) :
    ∃ use ∈ window.spent, use.token = token ∧ use.instant = score := by
  rw [sharedAt, touch_slots] at found
  exact kept.known token score (Key.get?_of_counted found).2

theorem Kept.unspent (kept : window.Kept total background now) (key : Key) :
    (window.withKeys scope key (window.sharedAt now)).Kept total background now :=
  ⟨kept.dated, fun _ => kept.touched, fun _ _ => kept.touched_known, kept.total, kept.background⟩

/-- A spend within a limit keeps the windows of that limit. -/
theorem bounded_spend {uses : List Use} {live : Dict Providers.Token ℚ} {bound : Nat}
    (bounded : Window.Bounded 60 bound (Budget.dated uses))
    (fresh : Window.Dated now (((token, now), now) :: Budget.dated uses))
    (covered : ∀ use ∈ uses, now < use.instant + 60 → live.get? use.token = some use.instant)
    (absent : live.get? token = none) (room : live.keys.length < bound) :
    Window.Bounded 60 bound (((token, now), now) :: Budget.dated uses) := by
  have inside : ∀ spend ∈ ((token, now), now) :: Budget.dated uses, now < spend.2 + 60 →
      spend.1 ∈ (live.set token now).items := by
    intro spend member young
    rcases List.mem_cons.mp member with rfl | old
    · exact (Dict.mem_items_iff _ token now).mpr (live.get?_set_self token now)
    · obtain ⟨use, listed, rfl⟩ := List.mem_map.mp old
      have found := covered use listed young
      have other : use.token ≠ token := fun same => by
        rw [same, absent] at found
        cases found
      exact (Dict.mem_items_iff _ use.token use.instant).mpr
        ((live.get?_set_ne now other).trans found)
  exact bounded.spend fresh inside ((items_set_le live token now).trans room)

/-- A use that was not in the shared key is dated after the others. -/
theorem Kept.dated_spend (kept : window.Kept total background now)
    (absent : (window.sharedAt now).slots.get? token = none) :
    Window.Dated now (((token, now), now) :: Budget.dated window.spent) := by
  refine kept.dated.spend fun member => ?_
  obtain ⟨_, spend, same⟩ := List.mem_map.mp member
  obtain ⟨use, listed, rfl⟩ := List.mem_map.mp spend
  obtain ⟨sameToken, sameInstant⟩ := Prod.mk.inj same
  have found := (kept.touched listed (by
    change use.instant = now at sameInstant
    linarith)).found
  rw [show use.token = token from sameToken, absent] at found
  cases found

theorem Kept.consume (kept : window.Kept total background now) (withinTotal : limit ≤ total)
    (withinBackground : scope = .background → limit ≤ background) :
    (window.consume now scope limit token).1.Kept total background now := by
  rcases @consume_cases window now scope limit token with ⟨_, same⟩ | same | ⟨absent, room, same⟩
  · rw [same]
    exact kept.unspent _
  · rw [same]
    exact kept.unspent _
  · rw [same]
    have covered : ∀ use ∈ window.spent, now < use.instant + 60 →
        (window.sharedAt now).slots.get? use.token = some use.instant :=
      fun use member young => (kept.touched member young).found
    have dated := kept.dated_spend absent
    refine ⟨dated, ?_, ?_, bounded_spend kept.total dated covered absent (by omega), ?_⟩
    · intro use member young
      rcases List.mem_cons.mp member with rfl | old
      · exact ⟨Dict.get?_set_self _ _ _, now + (90 : ℤ), rfl, by push_cast; linarith⟩
      · have holds := kept.touched old young
        have past : use.instant ≤ now :=
          kept.dated.past ((use.token, use.instant), use.instant) (List.mem_map_of_mem old)
        refine holds_expire (holds.zadd (fun same => ?_) now) (by linarith)
        have found := holds.found
        rw [same, absent] at found
        cases found
    · intro other score found
      change ((window.sharedAt now).slots.set token now).get? other = some score at found
      rw [Dict.get?_set] at found
      split at found
      · next same =>
          cases found
          exact ⟨_, List.mem_cons_self, same.symm, rfl⟩
      · obtain ⟨use, member, facts⟩ := kept.touched_known found
        exact ⟨use, List.mem_cons_of_mem _ member, facts⟩
    · cases scope with
      | foreground => exact kept.background
      | background =>
        have sub : (ofBackground window.spent).Sublist window.spent := List.filter_sublist
        have all : (((token, now), now) :: Budget.dated (ofBackground window.spent)).Sublist
            (((token, now), now) :: Budget.dated window.spent) := (sub.map _).cons_cons _
        have within := withinBackground rfl
        exact bounded_spend kept.background
          ⟨dated.apart.sublist (all.map _), fun use member => dated.past use (all.subset member)⟩
          (fun use member => covered use (sub.subset member)) absent (by omega)

/-- A script that answers 1 has its slot. -/
theorem Kept.answered (kept : window.Kept total background now)
    (admitted : (window.consume now scope limit token).2 = true) :
    ∃ use ∈ (window.consume now scope limit token).1.spent, use.token = token := by
  rcases @consume_cases window now scope limit token with
    ⟨⟨score, found⟩, same⟩ | same | ⟨_, _, same⟩
  · rw [same]
    obtain ⟨use, member, token, _⟩ := kept.touched_known found
    exact ⟨use, member, token⟩
  · rw [same] at admitted
    cases admitted
  · rw [same]
    exact ⟨_, List.mem_cons_self, rfl⟩

/-- A retransmission within the minute spends nothing. -/
theorem Kept.retransmitted (kept : window.Kept total background now)
    (single : (window.spent.map Use.token).Nodup)
    (young : ∀ use ∈ window.spent, use.token = token → now < use.instant + 60) :
    ((window.consume now scope limit token).1.spent.map Use.token).Nodup := by
  rcases @consume_cases window now scope limit token with ⟨_, same⟩ | same | ⟨absent, _, same⟩
  · rw [same]
    exact single
  · rw [same]
    exact single
  · rw [same]
    refine List.nodup_cons.mpr ⟨fun member => ?_, single⟩
    obtain ⟨use, listed, sameToken⟩ := List.mem_map.mp member
    change use.token = token at sameToken
    have found := (kept.touched listed (young use listed sameToken)).found
    rw [sameToken, absent] at found
    cases found

end ModelWindow

/-! ## The window of a process -/

/-- A slot that was spent in a process; `serial` numbers the spends of the window. -/
structure LocalUse where
  scope : BudgetScope
  serial : Nat
  instant : ℚ

/-- A deque of instants, each with its number. -/
structure LocalWindow where
  entries : List (Nat × ℚ)
  spent : List LocalUse

def numbered (spent : List LocalUse) : List (Nat × ℚ) :=
  spent.map fun use => (use.serial, use.instant)

namespace LocalWindow

def absent : LocalWindow := ⟨[], []⟩

def prune (window : LocalWindow) (now : ℚ) : List (Nat × ℚ) :=
  window.entries.dropWhile fun entry => decide (entry.2 ≤ now - 60)

/-- `_try_consume_window` without Redis. -/
def tryConsume (window : LocalWindow) (now : ℚ) (scope : BudgetScope) (limit : Nat) :
    LocalWindow × Bool :=
  let entries := window.prune now
  if limit ≤ entries.length then ({ window with entries := entries }, false)
  else
    (⟨entries ++ [(window.spent.length, now)], ⟨scope, window.spent.length, now⟩ :: window.spent⟩,
      true)

variable {window : LocalWindow} {now : ℚ} {scope : BudgetScope} {limit total background : Nat}

structure Kept (total background : Nat) (now : ℚ) (window : LocalWindow) : Prop where
  dated : Window.Dated now (numbered window.spent)
  serial : ∀ use ∈ window.spent, use.serial < window.spent.length
  stored : ∀ use ∈ window.spent, now < use.instant + 60 → (use.serial, use.instant) ∈ window.entries
  total : Window.Bounded 60 total (numbered window.spent)
  background : Window.Bounded 60 background
    (numbered (window.spent.filter fun use => use.scope = .background))

theorem kept_absent (total background : Nat) (now : ℚ) : absent.Kept total background now :=
  ⟨Window.dated_nil now, nofun, nofun, Window.bounded_nil _ _, Window.bounded_nil _ _⟩

theorem Kept.later {later : ℚ} (kept : window.Kept total background now) (le : now ≤ later) :
    window.Kept total background later :=
  ⟨kept.dated.later le, kept.serial,
    fun use member young => kept.stored use member (le.trans_lt young), kept.total,
    kept.background⟩

theorem Kept.pruned (kept : window.Kept total background now) {use : LocalUse}
    (member : use ∈ window.spent) (young : now < use.instant + 60) :
    (use.serial, use.instant) ∈ window.prune now := by
  have stored := kept.stored use member young
  rw [← List.takeWhile_append_dropWhile (p := fun entry : Nat × ℚ => decide (entry.2 ≤ now - 60))
    (l := window.entries)] at stored
  rcases List.mem_append.mp stored with old | kept
  · have le : use.instant ≤ now - 60 := by simpa using List.mem_takeWhile_imp old
    linarith
  · exact kept

theorem bounded_append {uses : List LocalUse} {entries : List (Nat × ℚ)} {serial bound : Nat}
    (bounded : Window.Bounded 60 bound (numbered uses))
    (fresh : Window.Dated now ((serial, now) :: numbered uses))
    (covered : ∀ use ∈ uses, now < use.instant + 60 → (use.serial, use.instant) ∈ entries)
    (room : entries.length < bound) :
    Window.Bounded 60 bound ((serial, now) :: numbered uses) := by
  have inside : ∀ spend ∈ (serial, now) :: numbered uses, now < spend.2 + 60 →
      spend.1 ∈ (entries ++ [(serial, now)]).map Prod.fst := by
    intro spend member young
    rcases List.mem_cons.mp member with rfl | old
    · exact List.mem_map_of_mem (List.mem_append_right _ (List.mem_singleton_self _))
    · obtain ⟨use, listed, rfl⟩ := List.mem_map.mp old
      have stored := covered use listed young
      exact List.mem_map_of_mem (f := Prod.fst) (List.mem_append_left [(serial, now)] stored)
  refine bounded.spend fresh inside ?_
  rw [List.length_map, List.length_append]
  exact room

theorem Kept.tryConsume (kept : window.Kept total background now) (withinTotal : limit ≤ total)
    (withinBackground : scope = .background → limit ≤ background) :
    (window.tryConsume now scope limit).1.Kept total background now := by
  unfold LocalWindow.tryConsume
  dsimp only
  split
  · exact ⟨kept.dated, kept.serial, fun _ => kept.pruned, kept.total, kept.background⟩
  · next room =>
      have fresh : window.spent.length ∉ (numbered window.spent).map Prod.fst := by
        intro member
        obtain ⟨_, spend, same⟩ := List.mem_map.mp member
        obtain ⟨use, listed, rfl⟩ := List.mem_map.mp spend
        exact absurd same (kept.serial use listed).ne
      have dated := kept.dated.spend fresh
      refine ⟨dated, ?_, ?_, bounded_append kept.total dated (fun _ => kept.pruned) (by omega), ?_⟩
      · intro use member
        rw [List.length_cons]
        rcases List.mem_cons.mp member with rfl | old
        · exact Nat.lt_succ_self _
        · exact Nat.lt_succ_of_lt (kept.serial use old)
      · intro use member young
        rcases List.mem_cons.mp member with rfl | old
        · exact List.mem_append_right _ (List.mem_singleton_self _)
        · exact List.mem_append_left _ (kept.pruned old young)
      · cases scope with
        | foreground => exact kept.background
        | background =>
          have sub : (window.spent.filter fun use => use.scope = .background).Sublist
              window.spent := List.filter_sublist
          have all := ((sub.map fun use => (use.serial, use.instant)).cons_cons
            (window.spent.length, now))
          have within := withinBackground rfl
          exact bounded_append kept.background
            ⟨dated.apart.sublist (all.map _),
              fun use member => dated.past use (all.subset member)⟩
            (fun use member => kept.pruned (sub.subset member)) (by omega)

end LocalWindow

end BobbyBotique.Games.Budget
