import BobbyBotique.Webhook.Dedupe

/-!
# Updates are accepted once

Two claims that Redis confirmed lie a full lifetime of the key apart.  While
the history has room it keeps every identity accepted within the retention, so
a call without confirmation is refused for all of them.  An acceptance without
confirmation is not written to Redis, and does not stop a later claim there.
-/

namespace BobbyBotique.Webhook

/-! ## The history -/

namespace Seen

theorem mem_keys {seen : Seen} {key : Key} :
    key ∈ seen.keys ↔ ∃ instant, (key, instant) ∈ seen := by
  simp only [keys, List.mem_map, Prod.exists, exists_and_right, exists_eq_right]

theorem mem_put {seen : Seen} {key other : Key} {now instant : ℚ} :
    (other, instant) ∈ seen.put key now ↔
      other = key ∧ instant = now ∨ other ≠ key ∧ (other, instant) ∈ seen := by
  unfold put
  split
  · rename_i present
    obtain ⟨old, listed⟩ := mem_keys.mp present
    rw [List.mem_map]
    constructor
    · rintro ⟨⟨name, stored⟩, member, same⟩
      split at same
      · cases same
        exact .inl ⟨rfl, rfl⟩
      · rename_i apart
        cases same
        exact .inr ⟨apart, member⟩
    · rintro (⟨rfl, rfl⟩ | ⟨apart, member⟩)
      · exact ⟨_, listed, if_pos rfl⟩
      · exact ⟨_, member, if_neg apart⟩
  · rename_i missing
    rw [List.mem_append, List.mem_singleton, Prod.mk.injEq]
    constructor
    · rintro (member | fresh)
      · refine .inr ⟨?_, member⟩
        rintro rfl
        exact missing (mem_keys.mpr ⟨instant, member⟩)
      · exact .inl fresh
    · rintro (fresh | ⟨_, member⟩)
      · exact .inr fresh
      · exact .inl member

theorem nodup_put {seen : Seen} (apart : seen.keys.Nodup) (key : Key) (now : ℚ) :
    (seen.put key now).keys.Nodup := by
  unfold put
  split
  · have same : keys (seen.map fun entry => if entry.1 = key then (key, now) else entry) =
        seen.keys := by
      rw [keys, List.map_map]
      apply List.map_congr_left
      intro entry _
      simp only [Function.comp_apply]
      split
      · rename_i same
        exact same.symm
      · rfl
    rw [same]
    exact apart
  · rename_i missing
    rw [keys, List.map_append]
    apply List.Nodup.append apart (List.nodup_singleton key)
    intro other member fresh
    rw [List.mem_singleton.mp fresh] at member
    exact missing member

theorem mem_foldl_put {seen : Seen} {keys : List Key} {key : Key} {now instant : ℚ} :
    (key, instant) ∈ keys.foldl (fun seen key => seen.put key now) seen ↔
      key ∈ keys ∧ instant = now ∨ key ∉ keys ∧ (key, instant) ∈ seen := by
  induction keys generalizing seen with
  | nil => simp only [List.foldl_nil, List.not_mem_nil, false_and, not_false_eq_true, true_and,
      false_or]
  | cons first rest ih =>
    rw [List.foldl_cons, ih, mem_put, List.mem_cons]
    by_cases same : key = first
    · subst same
      by_cases later : key ∈ rest
      · simp [later]
      · simp [later]
    · simp [same]

theorem nodup_foldl_put {seen : Seen} (apart : seen.keys.Nodup) (keys : List Key) (now : ℚ) :
    (Seen.keys (keys.foldl (fun seen key => seen.put key now) seen)).Nodup := by
  induction keys generalizing seen with
  | nil => exact apart
  | cons first rest ih => exact ih (nodup_put apart first now)

theorem mem_prune {seen : Seen} {key : Key} {now ttlSeconds instant : ℚ} :
    (key, instant) ∈ seen.prune now ttlSeconds ↔
      (key, instant) ∈ seen ∧ now - instant ≤ ttlSeconds := by
  simp [prune]

theorem nodup_prune {seen : Seen} (apart : seen.keys.Nodup) (now ttlSeconds : ℚ) :
    (seen.prune now ttlSeconds).keys.Nodup :=
  List.Nodup.sublist (List.filter_sublist.map Prod.fst) apart

/-- With room for the known and the new keys nothing is evicted. -/
theorem remember_eq {seen : Seen} {keys cover : List Key} {capacity : Int} {now : ℚ}
    (apart : seen.keys.Nodup) (distinct : keys.Nodup)
    (known : ∀ key ∈ seen.keys, key ∈ cover) (offered : ∀ key ∈ keys, key ∈ cover)
    (room : (cover.dedup.length : Int) ≤ capacity) :
    seen.remember keys capacity now = keys.foldl (fun seen key => seen.put key now) seen := by
  have fits : ∀ {list : List Key}, list.Nodup → (∀ key ∈ list, key ∈ cover) →
      list.length ≤ (max 1 capacity).toNat := by
    intro list nodup within
    have bound : list.length ≤ cover.dedup.length :=
      (List.subperm_of_subset nodup fun key member =>
        List.mem_dedup.mpr (within key member)).length_le
    omega
  have whole : keys.length - (max 1 capacity).toNat = 0 :=
    Nat.sub_eq_zero_of_le (fits distinct offered)
  have union : (seen.keys ++ keys.filter fun key => key ∉ seen.keys).Nodup := by
    apply List.Nodup.append apart (distinct.filter _)
    intro key old fresh
    exact of_decide_eq_true (List.mem_filter.mp fresh).2 old
  have enough := fits union (by
    intro key member
    rcases List.mem_append.mp member with old | fresh
    · exact known key old
    · exact offered key (List.mem_filter.mp fresh).1)
  have entries : seen.keys.length = seen.length := List.length_map _
  rw [List.length_append, entries] at enough
  unfold remember
  simp only [whole, List.drop_zero]
  rw [if_neg (by omega)]

end Seen

theorem Call.keys_nodup (call : Call) : call.keys.Nodup := by
  unfold Call.keys
  cases call.commandKey with
  | none => exact List.nodup_singleton _
  | some identity => simp

theorem Config.ttl_pos (config : Config) : (0 : ℚ) < config.ttl := by
  have one : (1 : Int) ≤ config.ttl := le_max_left _ _
  exact_mod_cast lt_of_lt_of_le Int.zero_lt_one one

/-! ## The invariant -/

namespace State

variable {python : Python} {config : Config} {state : State} {number : Nat} {call : Call}

/-- Redis has confirmed this key to this call at this instant. -/
def Claimed (state : State) (number : Nat) (key : Key) (instant : ℚ) : Prop :=
  (∃ call, state.calls.get? number = some call ∧ (key, instant) ∈ call.claimed) ∨
    ∃ acceptance ∈ state.accepted, acceptance.number = number ∧
      ∃ claims ∈ acceptance.confirmed, (key, instant) ∈ claims

/-- What two acceptances of one identity have between them. -/
def Apart (config : Config) (later earlier : Acceptance) : Prop :=
  ∀ key ∈ later.keys, key ∈ earlier.keys →
    (later.confirmed = none → earlier.instant + config.ttlSeconds < later.instant) ∧
    ∀ claims ∈ later.confirmed, ∀ before ∈ earlier.confirmed,
      ∃ second first, (key, second) ∈ claims ∧ (key, first) ∈ before ∧
        (first + config.ttl ≤ second ∨ second + config.ttl ≤ first)

/-- The part of the invariant about Redis. -/
structure Guarded (config : Config) (state : State) : Prop where
  covered : ∀ {number key instant}, state.Claimed number key instant →
    ∃ expiry, state.redis.get? key.redisKey = some expiry ∧ instant + config.ttl ≤ expiry
  spaced : ∀ {number other key first second}, state.Claimed number key first →
    state.Claimed other key second → number ≠ other →
      first + config.ttl ≤ second ∨ second + config.ttl ≤ first

/-- The part of the invariant about the calls and the history. -/
structure Recorded (config : Config) (state : State) : Prop where
  called : ∀ number call, state.calls.get? number = some call →
    number ∈ state.used ∧ ∀ acceptance ∈ state.accepted, acceptance.number ≠ number
  complete : ∀ number call, state.calls.get? number = some call → ∀ rest ∈ call.pending,
    call.claimed.map Prod.fst ++ rest = call.keys
  numbered : ∀ acceptance ∈ state.accepted, acceptance.number ∈ state.used
  confirmed : ∀ acceptance ∈ state.accepted, ∀ claims ∈ acceptance.confirmed,
    claims.map Prod.fst = acceptance.keys
  remembered : ∀ acceptance ∈ state.accepted, ∀ key ∈ acceptance.keys,
    state.clock - acceptance.instant ≤ config.ttlSeconds →
      ∃ instant, (key, instant) ∈ state.seen ∧ acceptance.instant ≤ instant
  past : ∀ acceptance ∈ state.accepted, acceptance.instant ≤ state.clock
  seen : ∀ key instant, (key, instant) ∈ state.seen →
    ∃ acceptance ∈ state.accepted, key ∈ acceptance.keys ∧ acceptance.instant = instant
  single : state.seen.keys.Nodup
  apart : state.accepted.Pairwise (Apart config)

structure Sound (config : Config) (state : State) : Prop where
  guarded : Guarded config state
  recorded : Recorded config state

theorem sound_start (config : Config) (clock : ℚ) : Sound config (start clock) := by
  have none : ∀ {number key instant}, ¬ (start clock).Claimed number key instant := by
    rintro number key instant (⟨call, found, _⟩ | ⟨acceptance, member, _⟩)
    · cases found
    · cases member
  constructor
  · constructor
    · intro number key instant claimed
      exact absurd claimed none
    · intro number other key first second claimed
      exact absurd claimed none
  · constructor <;> simp [start, Seen.keys, Dict.get?, Dict.empty]

/-! ## Redis -/

/-- A write to a vacant key leaves every earlier claim covered. -/
theorem Guarded.set_covered (guarded : Guarded config state) (key : Key) {number : Nat}
    {other : Key} {instant : ℚ} (claimed : state.Claimed number other instant) :
    ∃ expiry, (state.set config key).redis.get? other.redisKey = some expiry ∧
      instant + config.ttl ≤ expiry := by
  obtain ⟨expiry, found, covered⟩ := guarded.covered claimed
  unfold State.set
  split
  · rename_i vacant
    simp only [Dict.get?_set]
    split
    · rename_i same
      have ended : expiry ≤ state.clock := vacant expiry (same ▸ found)
      have positive := config.ttl_pos
      exact ⟨_, rfl, by linarith⟩
    · exact ⟨expiry, found, covered⟩
  · exact ⟨expiry, found, covered⟩

/-- A state with no new claims, whose Redis keys only moved on. -/
theorem Guarded.weaken {next : State} (guarded : Guarded config state)
    (claims : ∀ {number key instant}, next.Claimed number key instant →
      state.Claimed number key instant)
    (covered : ∀ {number key instant}, state.Claimed number key instant →
      ∃ expiry, next.redis.get? key.redisKey = some expiry ∧ instant + config.ttl ≤ expiry) :
    Guarded config next where
  covered claimed := covered (claims claimed)
  spaced first second apart := guarded.spaced (claims first) (claims second) apart

theorem Guarded.claim {key : Key} {rest : List Key} (guarded : Guarded config state)
    (found : state.calls.get? number = some call)
    (unaccepted : ∀ acceptance ∈ state.accepted, acceptance.number ≠ number)
    (vacant : state.vacant key) :
    Guarded config { state.set config key with
      calls := state.calls.set number
        { call with claimed := call.claimed ++ [(key, state.clock)], pending := some rest } } := by
  have stamped : (state.set config key).redis.get? key.redisKey =
      some (state.clock + config.ttl) := by
    rw [State.set, if_pos vacant]
    exact (Dict.get?_set _ _ _ _).trans (if_pos rfl)
  -- a claim after the step is the new one or an old one
  have cases : ∀ {name : Nat} {other : Key} {instant : ℚ},
      State.Claimed { state.set config key with
        calls := state.calls.set number
          { call with claimed := call.claimed ++ [(key, state.clock)], pending := some rest } }
        name other instant →
      name = number ∧ other = key ∧ instant = state.clock ∨ state.Claimed name other instant := by
    rintro name other instant (⟨holder, present, member⟩ | ⟨acceptance, member, rest⟩)
    · simp only [Dict.get?_set] at present
      split at present
      · rename_i same
        cases present
        rcases List.mem_append.mp member with old | new
        · exact .inr (.inl ⟨call, same ▸ found, old⟩)
        · cases List.mem_singleton.mp new
          exact .inl ⟨same, rfl, rfl⟩
      · exact .inr (.inl ⟨holder, present, member⟩)
    · refine .inr (.inr ⟨acceptance, ?_, rest⟩)
      rw [State.set, if_pos vacant] at member
      exact member
  -- an old claim of the key has expired
  have expired : ∀ {name : Nat} {instant : ℚ}, state.Claimed name key instant →
      instant + config.ttl ≤ state.clock := by
    intro name instant claimed
    obtain ⟨expiry, present, covered⟩ := guarded.covered claimed
    exact covered.trans (vacant expiry present)
  constructor
  · intro name other instant claimed
    rcases cases claimed with ⟨rfl, rfl, rfl⟩ | old
    · exact ⟨_, stamped, le_refl _⟩
    · exact guarded.set_covered key old
  · intro name other shared first second one two distinct
    rcases cases one with ⟨rfl, rfl, rfl⟩ | old
    · rcases cases two with ⟨rfl, _, _⟩ | earlier
      · exact absurd rfl distinct
      · exact .inr (expired earlier)
    · rcases cases two with ⟨rfl, rfl, rfl⟩ | earlier
      · exact .inl (expired old)
      · exact guarded.spaced old earlier distinct

/-! ## The calls -/

/-- A step that adds no call and accepts nothing. -/
theorem Recorded.weaken {next : State} (recorded : Recorded config state)
    (clock : next.clock = state.clock) (seen : next.seen = state.seen)
    (used : next.used = state.used) (accepted : next.accepted = state.accepted)
    (calls : ∀ number call, next.calls.get? number = some call →
      ∃ before, state.calls.get? number = some before ∧ (∀ rest ∈ call.pending,
        call.claimed.map Prod.fst ++ rest = call.keys)) : Recorded config next where
  called number call found := by
    obtain ⟨before, was, _⟩ := calls number call found
    rw [used, accepted]
    exact recorded.called number before was
  complete number call found := by
    obtain ⟨_, _, complete⟩ := calls number call found
    exact complete
  numbered := by
    rw [used, accepted]
    exact recorded.numbered
  confirmed := by
    rw [accepted]
    exact recorded.confirmed
  remembered := by
    rw [clock, seen, accepted]
    exact recorded.remembered
  past := by
    rw [clock, accepted]
    exact recorded.past
  seen := by
    rw [seen, accepted]
    exact recorded.seen
  single := by
    rw [seen]
    exact recorded.single
  apart := by
    rw [accepted]
    exact recorded.apart

theorem Sound.advance (sound : Sound config state) {elapsed : ℚ} (forward : 0 ≤ elapsed) :
    Sound config { state with clock := state.clock + elapsed } := by
  constructor
  · exact ⟨sound.guarded.covered, sound.guarded.spaced⟩
  · have recorded := sound.recorded
    refine { recorded with remembered := ?_, past := ?_ }
    · intro acceptance member key offered recent
      apply recorded.remembered acceptance member key offered
      exact le_trans (by simpa using forward) recent
    · intro acceptance member
      exact (recorded.past acceptance member).trans (le_add_of_nonneg_right forward)

theorem Sound.begin (sound : Sound config state) (reachable : Bool) (updateId : Int)
    (payload : Option (List (String × Json))) (fresh : number ∉ state.used) :
    Sound config (state.begin python number reachable updateId payload) := by
  constructor
  · apply sound.guarded.weaken
    · rintro name key instant (⟨call, found, member⟩ | accepted)
      · simp only [State.begin, Dict.get?_set] at found
        split at found
        · cases found
          cases member
        · exact .inl ⟨call, found, member⟩
      · exact .inr accepted
    · exact sound.guarded.covered
  · have recorded := sound.recorded
    refine { recorded with called := ?_, complete := ?_, numbered := ?_ }
    · intro name call found
      simp only [State.begin, Dict.get?_set] at found
      split at found
      · rename_i same
        refine ⟨List.mem_cons.mpr (.inl same), ?_⟩
        intro acceptance member shared
        exact fresh (same ▸ shared ▸ recorded.numbered acceptance member)
      · obtain ⟨known, unaccepted⟩ := recorded.called name call found
        exact ⟨List.mem_cons_of_mem _ known, unaccepted⟩
    · intro name call found rest pending
      simp only [State.begin, Dict.get?_set] at found
      split at found
      · cases found
        cases reachable with
        | false => cases pending
        | true =>
          cases pending
          rfl
      · exact recorded.complete name call found rest pending
    · intro acceptance member
      exact List.mem_cons_of_mem _ (recorded.numbered acceptance member)

theorem Sound.dropCall (sound : Sound config state) (number : Nat) :
    Sound config { state with calls := state.calls.del number } := by
  have kept : ∀ {name : Nat} {call : Call}, (state.calls.del number).get? name = some call →
      state.calls.get? name = some call := by
    intro name call found
    rw [Dict.get?_del] at found
    split at found
    · cases found
    · exact found
  constructor
  · apply sound.guarded.weaken
    · rintro name key instant (⟨call, found, member⟩ | accepted)
      · exact .inl ⟨call, kept found, member⟩
      · exact .inr accepted
    · exact sound.guarded.covered
  · refine sound.recorded.weaken ?_ ?_ ?_ ?_ fun name call found => ?_
    · rfl
    · rfl
    · rfl
    · rfl
    · exact ⟨call, kept found, sound.recorded.complete name call (kept found)⟩

theorem Sound.claim (sound : Sound config state) (found : state.calls.get? number = some call) :
    Sound config (state.claim config number call) := by
  obtain ⟨_, unaccepted⟩ := sound.recorded.called number call found
  have complete := sound.recorded.complete number call found
  unfold State.claim
  split
  · rename_i key rest pending
    split
    · rename_i vacant
      constructor
      · exact sound.guarded.claim found unaccepted vacant
      · have unchanged : (state.set config key).clock = state.clock ∧
            (state.set config key).seen = state.seen ∧
            (state.set config key).used = state.used ∧
            (state.set config key).accepted = state.accepted := by
          rw [State.set, if_pos vacant]
          exact ⟨rfl, rfl, rfl, rfl⟩
        obtain ⟨clock, seen, used, accepted⟩ := unchanged
        refine sound.recorded.weaken ?_ ?_ ?_ ?_ fun name holder present => ?_
        · exact clock
        · exact seen
        · exact used
        · exact accepted
        simp only [Dict.get?_set] at present
        split at present
        · rename_i same
          cases present
          refine ⟨call, same ▸ found, ?_⟩
          intro remaining listed
          cases listed
          have whole := complete _ pending
          simpa [Call.keys] using whole
        · exact ⟨holder, present, sound.recorded.complete name holder present⟩
    · exact sound.dropCall number
  · exact sound

theorem Sound.fail (sound : Sound config state) (found : state.calls.get? number = some call)
    (written : Bool) : Sound config (state.fail config number written call) := by
  unfold State.fail
  split
  · rename_i key rest pending
    have unchanged : ∀ written : Bool,
        (if written then state.set config key else state).clock = state.clock ∧
        (if written then state.set config key else state).seen = state.seen ∧
        (if written then state.set config key else state).used = state.used ∧
        (if written then state.set config key else state).accepted = state.accepted := by
      intro written
      unfold State.set
      split_ifs <;> exact ⟨rfl, rfl, rfl, rfl⟩
    obtain ⟨clock, seen, used, accepted⟩ := unchanged written
    have earlier : ∀ {name : Nat} {holder : Call},
        (state.calls.set number { call with pending := none }).get? name = some holder →
        ∃ before, state.calls.get? name = some before ∧ holder.claimed = before.claimed ∧
          ∀ rest ∈ holder.pending, holder.claimed.map Prod.fst ++ rest = holder.keys := by
      intro name holder present
      rw [Dict.get?_set] at present
      split at present
      · rename_i same
        cases present
        refine ⟨call, same ▸ found, rfl, ?_⟩
        intro rest none
        cases none
      · exact ⟨holder, present, rfl, sound.recorded.complete name holder present⟩
    constructor
    · apply sound.guarded.weaken
      · rintro name other instant (⟨holder, present, member⟩ | ⟨acceptance, member, claims⟩)
        · obtain ⟨before, was, same, _⟩ := earlier present
          exact .inl ⟨before, was, same ▸ member⟩
        · exact .inr ⟨acceptance, accepted ▸ member, claims⟩
      · intro name other instant claimed
        cases written with
        | true => exact sound.guarded.set_covered key claimed
        | false => exact sound.guarded.covered claimed
    · refine sound.recorded.weaken ?_ ?_ ?_ ?_ fun name holder present => ?_
      · exact clock
      · exact seen
      · exact used
      · exact accepted
      · obtain ⟨before, was, _, complete⟩ := earlier present
        exact ⟨before, was, complete⟩
  · exact sound

/-- The history after it was pruned still has every recent acceptance. -/
theorem Recorded.pruned (recorded : Recorded config state) {acceptance : Acceptance} {key : Key}
    (member : acceptance ∈ state.accepted) (offered : key ∈ acceptance.keys)
    (recent : state.clock - acceptance.instant ≤ config.ttlSeconds) :
    ∃ instant, (key, instant) ∈ state.seen.prune state.clock config.ttlSeconds ∧
      acceptance.instant ≤ instant := by
  obtain ⟨instant, listed, later⟩ := recorded.remembered acceptance member key offered recent
  refine ⟨instant, Seen.mem_prune.mpr ⟨listed, ?_⟩, later⟩
  linarith

theorem Recorded.prune (recorded : Recorded config state) :
    Recorded config { state with seen := state.seen.prune state.clock config.ttlSeconds } := by
  refine { recorded with remembered := ?_, seen := ?_, single := ?_ }
  · intro acceptance member key offered recent
    exact recorded.pruned member offered recent
  · intro key instant listed
    exact recorded.seen key instant (Seen.mem_prune.mp listed).1
  · exact Seen.nodup_prune recorded.single _ _

/-- The history after the prune is covered by the recent identities. -/
theorem Recorded.recent (recorded : Recorded config state) {key : Key}
    (listed : key ∈ Seen.keys (state.seen.prune state.clock config.ttlSeconds)) :
    key ∈ state.recent config := by
  obtain ⟨instant, entry⟩ := Seen.mem_keys.mp listed
  obtain ⟨kept, young⟩ := Seen.mem_prune.mp entry
  obtain ⟨acceptance, member, offered, same⟩ := recorded.seen key instant kept
  apply List.mem_flatMap.mpr
  refine ⟨acceptance, List.mem_filter.mpr ⟨member, ?_⟩, offered⟩
  rw [same, decide_eq_false (not_lt.mpr young), Bool.not_false]

/-- The call that is accepted now, against one accepted before. -/
theorem Sound.apart_now (sound : Sound config state)
    (found : state.calls.get? number = some call)
    (settled : ∀ rest ∈ call.pending, rest = [])
    (passed : call.pending = none → ∀ key ∈ call.keys,
      key ∉ Seen.keys (state.seen.prune state.clock config.ttlSeconds))
    {earlier : Acceptance} (member : earlier ∈ state.accepted) :
    Apart config ⟨number, call.keys, state.clock,
      if call.pending.isSome then some call.claimed else none⟩ earlier := by
  intro key offered before
  constructor
  · intro unconfirmed
    have absent : call.pending = none := by
      cases pending : call.pending with
      | none => rfl
      | some rest => simp [pending] at unconfirmed
    by_contra near
    have recent : state.clock - earlier.instant ≤ config.ttlSeconds := by
      have bound := not_lt.mp near
      linarith
    obtain ⟨instant, listed, _⟩ := sound.recorded.pruned member before recent
    exact passed absent key offered (Seen.mem_keys.mpr ⟨instant, listed⟩)
  · intro claims confirmed old known
    cases pending : call.pending with
    | none =>
      simp [pending] at confirmed
    | some rest =>
      have same : call.claimed = claims := by simpa [pending] using confirmed
      subst same
      have whole := sound.recorded.complete number call found rest pending
      rw [settled rest pending, List.append_nil] at whole
      have mine : key ∈ call.claimed.map Prod.fst := whole.symm ▸ offered
      have theirs : key ∈ old.map Prod.fst :=
        (sound.recorded.confirmed earlier member old known).symm ▸ before
      obtain ⟨⟨_, second⟩, claimed, rfl⟩ := List.mem_map.mp mine
      obtain ⟨⟨name, first⟩, claimedBefore, shared⟩ := List.mem_map.mp theirs
      cases shared
      refine ⟨second, first, claimed, claimedBefore, ?_⟩
      have distinct : earlier.number ≠ number :=
        (sound.recorded.called number call found).2 earlier member
      exact sound.guarded.spaced (.inr ⟨earlier, member, rfl, old, known, claimedBefore⟩)
        (.inl ⟨call, found, claimed⟩) distinct

theorem Sound.settle (sound : Sound config state) (found : state.calls.get? number = some call)
    (settled : ∀ rest ∈ call.pending, rest = [])
    (room : ((state.recent config ++ call.keys).dedup.length : Int) ≤ config.capacity) :
    Sound config (state.settle config number call) := by
  have pruned := sound.recorded.prune
  unfold State.settle
  simp only
  split
  · have refused : Sound config
        { state with seen := state.seen.prune state.clock config.ttlSeconds } :=
      ⟨⟨sound.guarded.covered, sound.guarded.spaced⟩, pruned⟩
    exact refused.dropCall number
  · rename_i passes
    have passed : call.pending = none → ∀ key ∈ call.keys,
        key ∉ Seen.keys (state.seen.prune state.clock config.ttlSeconds) := by
      intro none key offered listed
      apply passes
      rw [none, Option.isSome_none, Bool.not_false, Bool.true_and, List.any_eq_true]
      exact ⟨key, offered, decide_eq_true listed⟩
    have history : (state.seen.prune state.clock config.ttlSeconds).remember call.keys
        config.capacity state.clock =
          call.keys.foldl (fun seen key => seen.put key state.clock)
            (state.seen.prune state.clock config.ttlSeconds) :=
      Seen.remember_eq pruned.single call.keys_nodup
        (fun key listed => List.mem_append_left _ (sound.recorded.recent listed))
        (fun key offered => List.mem_append_right _ offered) room
    rw [history]
    have kept : ∀ {name : Nat} {holder : Call}, (state.calls.del number).get? name = some holder →
        name ≠ number ∧ state.calls.get? name = some holder := by
      intro name holder present
      rw [Dict.get?_del] at present
      split at present
      · cases present
      · rename_i distinct
        exact ⟨distinct, present⟩
    constructor
    · apply sound.guarded.weaken
      · rintro name key instant (⟨holder, present, member⟩ | ⟨acceptance, member, same, rest⟩)
        · exact .inl ⟨holder, (kept present).2, member⟩
        · rcases List.mem_cons.mp member with rfl | old
          · obtain ⟨claims, confirmed, listed⟩ := rest
            left
            refine ⟨call, same ▸ found, ?_⟩
            cases pending : call.pending with
            | none => simp [pending] at confirmed
            | some remaining =>
              simp only [pending, Option.isSome_some, if_true, Option.mem_some_iff] at confirmed
              exact confirmed ▸ listed
          · exact .inr ⟨acceptance, old, same, rest⟩
      · exact sound.guarded.covered
    · constructor
      case called =>
        intro name holder present
        obtain ⟨distinct, was⟩ := kept present
        obtain ⟨known, unaccepted⟩ := sound.recorded.called name holder was
        refine ⟨known, ?_⟩
        intro acceptance member
        rcases List.mem_cons.mp member with rfl | old
        · exact distinct.symm
        · exact unaccepted acceptance old
      case complete =>
        intro name holder present
        exact sound.recorded.complete name holder (kept present).2
      case numbered =>
        intro acceptance member
        rcases List.mem_cons.mp member with rfl | old
        · exact (sound.recorded.called number call found).1
        · exact sound.recorded.numbered acceptance old
      case confirmed =>
        intro acceptance member claims confirmed
        rcases List.mem_cons.mp member with rfl | old
        · cases pending : call.pending with
          | none => simp [pending] at confirmed
          | some remaining =>
            simp only [pending, Option.isSome_some, if_true, Option.mem_some_iff] at confirmed
            have whole := sound.recorded.complete number call found remaining pending
            rw [settled remaining pending, List.append_nil] at whole
            exact confirmed ▸ whole
        · exact sound.recorded.confirmed acceptance old claims confirmed
      case remembered =>
        intro acceptance member key offered recent
        by_cases mine : key ∈ call.keys
        · refine ⟨state.clock, Seen.mem_foldl_put.mpr (.inl ⟨mine, rfl⟩), ?_⟩
          rcases List.mem_cons.mp member with rfl | old
          · exact le_refl _
          · exact sound.recorded.past acceptance old
        · rcases List.mem_cons.mp member with rfl | old
          · exact absurd offered mine
          · obtain ⟨instant, listed, later⟩ := sound.recorded.pruned old offered recent
            exact ⟨instant, Seen.mem_foldl_put.mpr (.inr ⟨mine, listed⟩), later⟩
      case past =>
        intro acceptance member
        rcases List.mem_cons.mp member with rfl | old
        · exact le_refl _
        · exact sound.recorded.past acceptance old
      case seen =>
        intro key instant listed
        rcases Seen.mem_foldl_put.mp listed with ⟨mine, rfl⟩ | ⟨_, old⟩
        · exact ⟨_, List.mem_cons_self, mine, rfl⟩
        · obtain ⟨acceptance, member, rest⟩ := pruned.seen key instant old
          exact ⟨acceptance, List.mem_cons_of_mem _ member, rest⟩
      case single => exact Seen.nodup_foldl_put pruned.single call.keys state.clock
      case apart =>
        apply List.Pairwise.cons
        · intro earlier member
          exact sound.apart_now found settled passed member
        · exact sound.recorded.apart

theorem Sound.step (label : Label) (sound : Sound config state)
    (allowed : state.Allowed config label) : Sound config (step python config state label) := by
  have held : ∀ (name : Nat) (change : Call → State),
      (∀ call, state.calls.get? name = some call → Sound config (change call)) →
      Sound config ((state.calls.get? name).elim state change) := by
    intro name change changes
    cases found : state.calls.get? name with
    | none => exact sound
    | some call => exact changes call found
  cases label with
  | advance elapsed => exact sound.advance allowed
  | call number reachable updateId payload => exact sound.begin reachable updateId payload allowed
  | claim number => exact held number _ fun call found => sound.claim found
  | fail number written => exact held number _ fun call found => sound.fail found written
  | cancel number => exact sound.dropCall number
  | settle number =>
    apply held number
    intro call found
    have room := allowed call found
    split
    · exact sound
    · rename_i nothing
      apply sound.settle found _ room
      intro rest pending
      cases rest with
      | nil => rfl
      | cons key rest => exact absurd pending (nothing key rest)

/-- Any two acceptances of one update or of one bot command: if the later one
was not confirmed by Redis, it comes more than `ttl_seconds` after the earlier
one; if both were confirmed, the two claims of the identity are a lifetime of
the key apart. -/
theorem accepted_apart (python : Python) (config : Config) (clock : ℚ) (labels : List Label)
    (allowed : Run.Along (step python config) (Allowed config) (start clock) labels) :
    (Run.run (step python config) (start clock) labels).accepted.Pairwise (Apart config) := by
  have sound : Sound config (Run.run (step python config) (start clock) labels) :=
    allowed.invariant (fun _ label sound allowed => sound.step label allowed)
      (sound_start config clock)
  exact sound.recorded.apart

/-- A private message that is the command `/start`. -/
def startCommand (messageId : Int) : Option (List (String × Json)) :=
  some [("message", .mapping
    [("text", .str "/start"), ("message_id", .int messageId), ("entities", .list [.mapping
        [("type", .str "bot_command"), ("offset", .int 0), ("length", .int 6)]]),
      ("chat", .mapping [("id", .int 7), ("type", .str "private")])])]

/-- The functions of the language on text in lower case. -/
def plain : Python := ⟨id, fun _ => ""⟩

/-- Redis confirms a command, fails on the repetition, which is refused, and
confirms the command again once its claim has expired. -/
theorem accepted_apart_outage :
    (Run.run (step plain ⟨180, 10000⟩) (start 0)
      [.call 0 true 1 (startCommand 5), .claim 0, .claim 0, .settle 0,
       .advance 90, .call 1 true 2 (startCommand 5), .fail 1 true, .settle 1,
       .advance 180, .call 2 true 3 (startCommand 5), .claim 2, .claim 2,
       .settle 2]).accepted.Pairwise (Apart ⟨180, 10000⟩) :=
  accepted_apart plain ⟨180, 10000⟩ 0 _ (by decide +kernel)

/-- No two acceptances of one identity are less than `ttl_seconds` apart. -/
def AcceptedOnce (config : Config) (state : State) : Prop :=
  state.accepted.Pairwise fun later earlier =>
    (∃ key ∈ later.keys, key ∈ earlier.keys) → config.ttlSeconds ≤ later.instant - earlier.instant

instance (config : Config) (state : State) : Decidable (AcceptedOnce config state) := by
  unfold AcceptedOnce
  infer_instance

/-- Four ways to a second acceptance: Redis claims what was accepted without
it; a lifetime with its fraction cut off; a call that was slow after its claim;
and a history of five entries, for three updates with two keys each. -/
theorem acceptedOnce_fails :
    ¬ AcceptedOnce ⟨180, 10000⟩ (Run.run (step plain ⟨180, 10000⟩) (start 0)
        [.call 0 false 1 none, .settle 0, .advance 10, .call 1 true 1 none, .claim 1, .settle 1]) ∧
      ¬ AcceptedOnce ⟨3 / 2, 10000⟩ (Run.run (step plain ⟨3 / 2, 10000⟩) (start 0)
        [.call 0 true 1 none, .claim 0, .settle 0, .advance (6 / 5), .call 1 true 1 none,
          .claim 1, .settle 1]) ∧
      ¬ AcceptedOnce ⟨180, 10000⟩ (Run.run (step plain ⟨180, 10000⟩) (start 0)
        [.call 0 true 1 none, .claim 0, .advance 100, .settle 0, .advance 80,
          .call 1 true 1 none, .claim 1, .settle 1]) ∧
      ¬ AcceptedOnce ⟨180, 5⟩ (Run.run (step plain ⟨180, 5⟩) (start 0)
        [.call 0 false 1 (startCommand 1), .settle 0, .call 1 false 2 (startCommand 2), .settle 1,
          .call 2 false 3 (startCommand 3), .settle 2, .call 3 false 1 none, .settle 3]) := by
  refine ⟨?_, ?_, ?_, ?_⟩ <;> decide +kernel

end State

end BobbyBotique.Webhook
