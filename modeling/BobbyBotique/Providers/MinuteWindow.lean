import BobbyBotique.Providers.MinuteQuota

/-!
# Sixty seconds of usage

A commit leaves its reservation in the window with the instant of the commit.
The purge takes it out after a minute; what else can take it out of the Redis
window is the key's deadline, which a commit does not renew.  Where each commit
finds a key that lasts another minute, no minute holds more commits than the
limit.  The local window has no deadline.
-/

namespace BobbyBotique.Providers

open Run

/-! ## What one command does to the key -/

namespace Key

/-- The token is in the set with this score, and the key lives to the bound. -/
structure Holds (key : Key) (token : Token) (score bound : ℚ) : Prop where
  found : key.slots.get? token = some score
  lives : ∃ deadline, key.deadline = some deadline ∧ bound ≤ deadline

theorem seen_of_lives {key : Key} {now bound : ℚ}
    (lives : ∃ deadline, key.deadline = some deadline ∧ bound ≤ deadline) (le : now ≤ bound) :
    key.seen now = key := by
  obtain ⟨deadline, found, later⟩ := lives
  simp only [seen, found]
  exact if_neg (not_lt.mpr (le.trans later))

theorem seen_of_get? {key : Key} {now score : ℚ} {token : Token}
    (found : (key.seen now).slots.get? token = some score) : key.seen now = key := by
  unfold seen at found ⊢
  split at found
  · rfl
  · split at found
    · cases (Dict.get?_empty token).symm.trans found
    · next current => exact if_neg current

theorem seen_keys_le (key : Key) (now : ℚ) :
    (key.seen now).slots.keys.length ≤ key.slots.keys.length := by
  unfold seen
  split
  · exact le_rfl
  · split
    · exact Nat.zero_le _
    · exact le_rfl

/-- A key with a member keeps its deadline. -/
theorem shrunk_deadline {key : Key} {slots : Dict Token ℚ} {token : Token} {score : ℚ}
    (found : slots.get? token = some score) : (key.shrunk slots).deadline = key.deadline := by
  have some : slots.keys.isEmpty = false :=
    List.isEmpty_eq_false_iff_exists_mem.mpr ⟨token, Dict.mem_keys_of_get? found⟩
  simp only [shrunk, some, Bool.false_eq_true, if_false]

theorem Holds.shrunk {key : Key} {slots : Dict Token ℚ} {token : Token} {score bound : ℚ}
    (holds : key.Holds token score bound) (found : slots.get? token = some score) :
    (key.shrunk slots).Holds token score bound :=
  ⟨found, (shrunk_deadline found).symm ▸ holds.lives⟩

/-- The purge keeps a young member of a key that lives. -/
theorem Holds.counted {key : Key} {token : Token} {score bound now : ℚ}
    (holds : key.Holds token score bound) (young : now - 60 < score) (le : now ≤ bound) :
    (key.counted now).Holds token score bound := by
  rw [Key.counted, seen_of_lives holds.lives le]
  apply holds.shrunk
  apply (key.slots.get?_retain_eq_some _ token score).mpr
  exact ⟨holds.found, by rw [decide_eq_false (not_le.mpr young), Bool.not_false]⟩

theorem Holds.zadd {key : Key} {token other : Token} {score bound : ℚ}
    (holds : key.Holds token score bound) (apart : token ≠ other) (instant : ℚ) :
    (key.zadd other instant).Holds token score bound :=
  ⟨(key.slots.get?_set_ne instant apart).trans holds.found, holds.lives⟩

/-- `EXPIRE` runs only where it moves the deadline on. -/
theorem Holds.renewed {key : Key} {token : Token} {score bound : ℚ}
    (holds : key.Holds token score bound) (now : ℚ) (seconds : ℤ) :
    (if key.ttl now < seconds then key.expire now seconds else key).Holds token score bound := by
  obtain ⟨deadline, found, later⟩ := holds.lives
  split
  · next short =>
      have floor : deadline - now + 1 / 2 < (seconds : ℚ) := by
        apply Int.floor_lt.mp
        simpa only [ttl, found] using short
      exact ⟨holds.found, now + seconds, rfl, by linarith⟩
  · exact holds

theorem counted_keys_le (key : Key) (now : ℚ) :
    (key.counted now).slots.keys.length ≤ key.slots.keys.length :=
  (Dict.keys_retain_le _ _).trans (key.seen_keys_le now)

/-- What a reservation would count is stored. -/
theorem get?_of_counted {key : Key} {now score : ℚ} {token : Token}
    (found : (key.counted now).slots.get? token = some score) :
    (key.seen now).slots.get? token = some score ∧ key.slots.get? token = some score := by
  have kept := ((key.seen now).slots.get?_retain_eq_some _ token score).mp found
  exact ⟨kept.1, seen_of_get? kept.1 ▸ kept.1⟩

/-- A key with a member has a deadline. -/
def Dated (key : Key) : Prop :=
  ∀ token score, key.slots.get? token = some score → ∃ deadline, key.deadline = some deadline

theorem Dated.shrunk {key : Key} (dated : key.Dated) {slots : Dict Token ℚ}
    (within : ∀ token score, slots.get? token = some score →
      key.slots.get? token = some score) : (key.shrunk slots).Dated := by
  intro token score found
  have kept : slots.get? token = some score := found
  rw [shrunk_deadline kept]
  exact dated token score (within token score kept)

theorem Dated.seen {key : Key} (dated : key.Dated) (now : ℚ) : (key.seen now).Dated := by
  intro token score found
  have unchanged := seen_of_get? found
  rw [unchanged] at found ⊢
  exact dated token score found

theorem Dated.counted {key : Key} (dated : key.Dated) (now : ℚ) : (key.counted now).Dated :=
  (dated.seen now).shrunk fun token score found =>
    ((key.seen now).slots.get?_retain_eq_some _ token score).mp found |>.1

end Key

/-! ## What one command does -/

/-- A command about another reservation keeps a young one, and the key lives on. -/
theorem serve_holds {key : Key} {token : Token} {score bound now : ℚ} {command : Command}
    (limit : Nat) (holds : key.Holds token score bound) (young : now - 60 < score)
    (le : now ≤ bound) (apart : command.subject ≠ some token) :
    (serve limit key now command).Holds token score bound := by
  cases command with
  | reserve other pending =>
    have counted := holds.counted young le
    simp only [serve, reserveMinute]
    split
    · split
      · exact counted
      · exact counted
    · have other : token ≠ other := fun same => apart (congrArg some same.symm)
      exact (counted.zadd other (now + pending)).renewed now ⌈pending + 61⌉
  | commit other heard =>
    simp only [serve, commitMinute, Key.seen_of_lives holds.lives le]
    split
    · exact holds
    · exact holds.zadd (fun same => apart (congrArg some same.symm)) now
  | release other =>
    simp only [serve, releaseMinute, Key.seen_of_lives holds.lives le]
    have other : token ≠ other := fun same => apart (congrArg some same.symm)
    exact holds.shrunk ((key.slots.get?_del_ne other).trans holds.found)
  | available => exact holds.counted young le

theorem serve_keys_le {key : Key} {limit : Nat} (now : ℚ) (command : Command)
    (room : key.slots.keys.length ≤ limit) :
    (serve limit key now command).slots.keys.length ≤ limit := by
  cases command with
  | reserve token pending =>
    have counted := (key.counted_keys_le now).trans room
    simp only [serve, reserveMinute]
    split
    · split
      · exact counted
      · exact counted
    · next free =>
        have added : ((key.counted now).slots.set token (now + pending)).keys.length ≤ limit :=
          (Dict.keys_set_le _ token _).trans (Nat.lt_of_not_le free)
        split
        · exact added
        · exact added
  | commit token heard =>
    have seen := (key.seen_keys_le now).trans room
    simp only [serve, commitMinute]
    split
    · exact seen
    · next found => exact (Dict.keys_set_of_get? found now).trans_le seen
  | release token =>
    exact (Dict.keys_del_le _ token).trans ((key.seen_keys_le now).trans room)
  | available => exact (key.counted_keys_le now).trans room

/-- A member that a command leaves was there before, or the command reserves it. -/
theorem get?_of_serve {key : Key} {limit : Nat} {now score : ℚ} {command : Command}
    {token : Token} (found : (serve limit key now command).slots.get? token = some score) :
    token ∈ command.draws ∨ ∃ before, key.slots.get? token = some before := by
  cases command with
  | reserve other pending =>
    by_cases same : token = other
    · exact .inl (List.mem_singleton.mpr same)
    · right
      refine ⟨score, (@Key.get?_of_counted key now score token ?_).2⟩
      simp only [serve, reserveMinute] at found
      split at found
      · split at found
        · exact found
        · exact found
      · rw [apply_ite Key.slots, Key.expire, ite_self, Key.zadd, Dict.get?_set_ne _ _ same] at found
        exact found
  | commit other heard =>
    right
    simp only [serve, commitMinute] at found
    split at found
    · exact ⟨score, Key.seen_of_get? found ▸ found⟩
    · next old stored =>
        have unchanged := Key.seen_of_get? stored
        rw [unchanged] at found stored
        by_cases same : token = other
        · exact ⟨old, same ▸ stored⟩
        · exact ⟨score, (Dict.get?_set_ne _ _ same).symm.trans found⟩
  | release other =>
    right
    have stored : (key.seen now).slots.get? token = some score := by
      have gone : ((key.seen now).slots.del other).get? token = some score := found
      rw [Dict.get?_del] at gone
      split at gone
      · cases gone
      · exact gone
    exact ⟨score, Key.seen_of_get? stored ▸ stored⟩
  | available => exact .inr ⟨score, (Key.get?_of_counted found).2⟩

theorem serve_dated {key : Key} {now : ℚ} {command : Command} (limit : Nat) (dated : key.Dated)
    (ahead : ∀ token pending, command = .reserve token pending → 0 ≤ pending) :
    (serve limit key now command).Dated := by
  cases command with
  | reserve token pending =>
    have counted := dated.counted now
    simp only [serve, reserveMinute]
    split
    · split
      · exact counted
      · exact counted
    · intro other score found
      split
      · exact ⟨_, rfl⟩
      · next long =>
          -- a key without a deadline answers -1, which is below every renewal
          have waits := ahead token pending rfl
          have positive : (0 : ℤ) < ⌈pending + 61⌉ := Int.ceil_pos.mpr (by linarith)
          cases bare : (key.counted now).deadline with
          | none =>
            simp only [Key.ttl, Key.zadd, bare] at long
            omega
          | some deadline => exact ⟨deadline, bare⟩
  | commit token heard =>
    have seen := dated.seen now
    simp only [serve, commitMinute]
    split
    · exact seen
    · next old stored =>
        intro other score found
        exact seen token old stored
  | release token =>
    apply (dated.seen now).shrunk
    intro other score found
    rw [Dict.get?_del] at found
    split at found
    · cases found
    · exact found
  | available => exact dated.counted now

/-! ## Runs against the server -/

namespace Minute

variable {limit : Nat} {state : Minute} {call : Call}

/-- What every run keeps. -/
structure Kept (limit : Nat) (state : Minute) : Prop where
  dated : Window.Dated state.clock state.spent
  drawn : ∀ use ∈ state.spent, use.1 ∈ state.issued
  known : ∀ token score, state.key.slots.get? token = some score → token ∈ state.issued
  room : state.key.slots.keys.length ≤ limit
  expires : state.key.Dated

theorem mem_spends {use : Token × ℚ} (spent : use ∈ state.spends call) :
    use.2 = call.now ∧ ∃ heard, call.command = .commit use.1 heard ∧
      (commitMinute state.key call.now use.1).2 = true := by
  obtain ⟨now, command⟩ := call
  cases command with
  | commit token heard =>
    simp only [spends] at spent
    split at spent
    · next done =>
        cases List.mem_singleton.mp spent
        exact ⟨rfl, heard, rfl, (Bool.and_eq_true_iff.mp done).2⟩
    · cases spent
  | reserve | release | available => cases spent

/-- A commit that succeeds found its reservation. -/
theorem commit_found {key : Key} {now : ℚ} {token : Token}
    (done : (commitMinute key now token).2 = true) :
    key.seen now = key ∧ (∃ score, key.slots.get? token = some score) ∧
      (commitMinute key now token).1 = key.zadd token now := by
  simp only [commitMinute] at done ⊢
  split at done
  · cases done
  · next score found =>
      have unchanged := Key.seen_of_get? found
      rw [unchanged] at found ⊢
      exact ⟨rfl, ⟨score, found⟩, rfl⟩

/-- The commits of one call: none, or one that was not made before. -/
theorem spends_cases (state : Minute) (call : Call) :
    state.spends call = [] ∨ ∃ token heard, call.command = .commit token heard ∧
        (commitMinute state.key call.now token).2 = true ∧
          state.spends call = [(token, call.now)] := by
  obtain ⟨now, command⟩ := call
  cases command with
  | commit token heard =>
    simp only [spends]
    split
    · next done =>
        exact .inr ⟨token, heard, rfl, (Bool.and_eq_true_iff.mp done).2, rfl⟩
    · exact .inl rfl
  | reserve | release | available => exact .inl rfl

theorem step_kept (kept : state.Kept limit) (permitted : state.Permitted call) :
    (state.step limit call).Kept limit := by
  have later := kept.dated.later permitted.1
  have known : ∀ token score, (state.step limit call).key.slots.get? token = some score →
      token ∈ (state.step limit call).issued := by
    intro token score found
    rcases get?_of_serve found with drawn | ⟨before, stored⟩
    · exact List.mem_append_left _ drawn
    · exact List.mem_append_right _ (kept.known token before stored)
  have expires : (state.step limit call).key.Dated := by
    apply serve_dated limit kept.expires
    intro token pending same
    have usual := permitted.2
    rw [same] at usual
    exact usual.2
  have room := serve_keys_le call.now call.command kept.room
  rcases state.spends_cases call with none | ⟨token, heard, same, done, one⟩
  · have unchanged : (state.step limit call).spent = state.spent :=
      congrArg (· ++ state.spent) none
    refine ⟨unchanged.symm ▸ later, ?_, known, room, expires⟩
    intro use member
    rw [unchanged] at member
    exact List.mem_append_right _ (kept.drawn use member)
  · have fresh : token ∉ state.spent.map Prod.fst := by
      have usual := permitted.2
      rw [same] at usual
      exact usual
    have grown : (state.step limit call).spent = (token, call.now) :: state.spent :=
      congrArg (· ++ state.spent) one
    obtain ⟨score, stored⟩ := (commit_found done).2.1
    refine ⟨grown.symm ▸ later.spend fresh, ?_, known, room, expires⟩
    intro use member
    rw [grown] at member
    rcases List.mem_cons.mp member with rfl | earlier
    · exact List.mem_append_right _ (kept.known token score stored)
    · exact List.mem_append_right _ (kept.drawn use earlier)

theorem start_kept (limit : Nat) (clock : ℚ) : (start clock).Kept limit := by
  constructor
  · exact Window.dated_nil clock
  · exact fun use member => absurd member List.not_mem_nil
  · intro token score found
    cases (Dict.get?_empty token).symm.trans found
  · exact Nat.zero_le limit
  · intro token score found
    cases (Dict.get?_empty token).symm.trans found

/-- The successful commits whose minute is not over are still in the window. -/
def Covered (state : Minute) : Prop :=
  ∀ use ∈ state.spent, state.clock < use.2 + 60 → state.key.Holds use.1 use.2 (use.2 + 60)

/-- No permitted call is about a reservation whose commit succeeded. -/
theorem subject_ne {use : Token × ℚ} (kept : state.Kept limit) (permitted : state.Permitted call)
    (member : use ∈ state.spent) : call.command.subject ≠ some use.1 := by
  obtain ⟨now, command⟩ := call
  have listed : use.1 ∈ state.spent.map Prod.fst := List.mem_map_of_mem member
  have usual := permitted.2
  cases command with
  | reserve token pending =>
    rintro ⟨⟩
    exact usual.1 (kept.drawn use member)
  | commit token heard | release token =>
    rintro ⟨⟩
    exact usual listed
  | available => exact nofun

/-- A slot in use stays in use for its minute. -/
theorem step_holds {use : Token × ℚ} (kept : state.Kept limit) (permitted : state.Permitted call)
    (member : use ∈ state.spent) (holds : state.key.Holds use.1 use.2 (use.2 + 60))
    (within : call.now < use.2 + 60) :
    (state.step limit call).key.Holds use.1 use.2 (use.2 + 60) :=
  serve_holds limit holds (by linarith) within.le (subject_ne kept permitted member)

/-- A commit in time starts its minute. -/
theorem commit_holds {token : Token} {heard : Bool} (kept : state.Kept limit)
    (same : call.command = .commit token heard) (inTime : state.InTime call)
    (done : (commitMinute state.key call.now token).2 = true) :
    (state.step limit call).key.Holds token call.now (call.now + 60) := by
  obtain ⟨now, command⟩ := call
  cases same
  obtain ⟨unchanged, ⟨score, stored⟩, result⟩ := commit_found done
  obtain ⟨deadline, dated⟩ := kept.expires token score stored
  have lasts := inTime (by rw [unchanged, stored]; rfl)
  rw [unchanged] at lasts
  have key : (state.step limit ⟨now, .commit token heard⟩).key = state.key.zadd token now := result
  rw [key]
  exact ⟨Dict.get?_set_self _ token now, deadline, dated, lasts deadline dated⟩

theorem step_covered (kept : state.Kept limit) (permitted : state.Permitted call)
    (inTime : state.InTime call) (covered : state.Covered) : (state.step limit call).Covered := by
  intro use member within
  have earlier (before : use ∈ state.spent) :
      (state.step limit call).key.Holds use.1 use.2 (use.2 + 60) :=
    step_holds kept permitted before (covered use before (permitted.1.trans_lt within)) within
  rcases List.mem_append.mp member with new | old
  · obtain ⟨instant, heard, same, done⟩ := mem_spends new
    have holds := commit_holds kept same inTime done
    rwa [← instant] at holds
  · exact earlier old

theorem step_bounded (kept : state.Kept limit) (permitted : state.Permitted call)
    (inTime : state.InTime call) (covered : state.Covered)
    (bounded : Window.Bounded 60 limit state.spent) :
    Window.Bounded 60 limit (state.step limit call).spent := by
  rcases state.spends_cases call with none | ⟨token, heard, same, done, one⟩
  · have unchanged : (state.step limit call).spent = state.spent :=
      congrArg (· ++ state.spent) none
    exact unchanged.symm ▸ bounded
  · have grown : (state.step limit call).spent = (token, call.now) :: state.spent :=
      congrArg (· ++ state.spent) one
    have after := step_kept kept permitted
    have live := step_covered kept permitted inTime covered
    have dated := after.dated
    rw [grown] at dated ⊢
    apply bounded.spend dated ?_ after.room
    intro use member current
    have listed : use ∈ (state.step limit call).spent := by
      rw [grown]
      exact member
    exact Dict.mem_keys_of_get? (live use listed current).found

/-- A slot in use is counted by every reservation of its minute. -/
theorem occupies_of_holds {token : Token} {score now : ℚ}
    (holds : state.key.Holds token score (score + 60)) (within : now < score + 60) :
    state.Occupies now token :=
  ⟨score, (holds.counted (by linarith) within.le).found⟩

/-- What a run in time keeps besides. -/
structure Safe (limit : Nat) (state : Minute) : Prop where
  kept : state.Kept limit
  covered : state.Covered
  bounded : Window.Bounded 60 limit state.spent

theorem start_safe (limit : Nat) (clock : ℚ) : (start clock).Safe limit :=
  ⟨start_kept limit clock, fun _ member => absurd member List.not_mem_nil,
    Window.bounded_nil 60 limit⟩

theorem run_safe {clock : ℚ} {calls : List Call}
    (along : Along (step limit) (fun state call => state.Permitted call ∧ state.InTime call)
      (start clock) calls) : (run (step limit) (start clock) calls).Safe limit := by
  apply along.invariant _ (start_safe limit clock)
  rintro state call safe ⟨permitted, inTime⟩
  exact ⟨step_kept safe.kept permitted, step_covered safe.kept permitted inTime safe.covered,
    step_bounded safe.kept permitted inTime safe.covered safe.bounded⟩

theorem reachable_kept {clock : ℚ}
    (reachable : Reachable (step limit) Permitted (start clock) state) : state.Kept limit :=
  reachable.invariant (start_kept limit clock) fun _ _ kept permitted => step_kept kept permitted

/-- A slot in use stays in use along every run within its minute. -/
theorem run_holds {use : Token × ℚ} {calls : List Call} (kept : state.Kept limit)
    (member : use ∈ state.spent) (holds : state.key.Holds use.1 use.2 (use.2 + 60))
    (along : Along (step limit) Permitted state calls)
    (within : (run (step limit) state calls).clock < use.2 + 60) :
    (run (step limit) state calls).key.Holds use.1 use.2 (use.2 + 60) := by
  have all : (run (step limit) state calls).Kept limit ∧
      use ∈ (run (step limit) state calls).spent ∧
        ((run (step limit) state calls).clock < use.2 + 60 →
          (run (step limit) state calls).key.Holds use.1 use.2 (use.2 + 60)) := by
    apply along.carries (fun state => state.Kept limit ∧ use ∈ state.spent ∧
      (state.clock < use.2 + 60 → state.key.Holds use.1 use.2 (use.2 + 60)))
      ⟨kept, member, fun _ => holds⟩
    rintro state call ⟨kept, member, holds⟩ permitted
    refine ⟨step_kept kept permitted, List.mem_append_right _ member, fun current => ?_⟩
    exact step_holds kept permitted member (holds (permitted.1.trans_lt current)) current
  exact all.2.2 within

/-- A token that was drawn and is not stored never comes back. -/
theorem run_gone {token : Token} {calls : List Call} (drawn : token ∈ state.issued)
    (gone : state.key.slots.get? token = none)
    (along : Along (step limit) Permitted state calls) :
    (run (step limit) state calls).key.slots.get? token = none := by
  have all : token ∈ (run (step limit) state calls).issued ∧
      (run (step limit) state calls).key.slots.get? token = none := by
    apply along.carries (fun state => token ∈ state.issued ∧
      state.key.slots.get? token = none) ⟨drawn, gone⟩
    rintro state call ⟨drawn, gone⟩ permitted
    refine ⟨List.mem_append_right _ drawn, ?_⟩
    by_contra stored
    obtain ⟨score, found⟩ := Option.ne_none_iff_exists'.mp stored
    rcases get?_of_serve found with again | ⟨before, kept⟩
    · obtain ⟨now, command⟩ := call
      cases command with
      | reserve other pending =>
        cases List.mem_singleton.mp again
        exact permitted.2.1 drawn
      | commit | release | available => cases again
    · cases gone.symm.trans kept
  exact all.2

theorem not_occupies {token : Token} (now : ℚ) (gone : state.key.slots.get? token = none) :
    ¬ state.Occupies now token := by
  rintro ⟨score, found⟩
  cases gone.symm.trans (Key.get?_of_counted found).2

/-- A refused reservation is not in the window. -/
theorem refused_gone {token : Token} {pending now : ℚ} (kept : state.Kept limit)
    (fresh : token ∉ state.issued)
    (refused : (reserveMinute state.key now limit token pending).2 ≠ .admitted) :
    (reserveMinute state.key now limit token pending).1.slots.get? token = none := by
  by_contra stored
  obtain ⟨score, found⟩ := Option.ne_none_iff_exists'.mp stored
  simp only [reserveMinute] at refused found
  split at refused
  · next full =>
      rw [if_pos full] at found
      split at found
      · exact fresh (kept.known token score (Key.get?_of_counted found).2)
      · exact fresh (kept.known token score (Key.get?_of_counted found).2)
  · exact refused rfl

/-- The call is the refund of this reservation, or its refusal. -/
def Vacates (limit : Nat) (state : Minute) (call : Call) (token : Token) : Prop :=
  match call.command with
  | .release other => other = token ∧ token ∈ state.issued
  | .reserve other pending =>
    other = token ∧ (reserveMinute state.key call.now limit token pending).2 ≠ .admitted
  | _ => False

theorem vacates_gone {token : Token} (kept : state.Kept limit) (permitted : state.Permitted call)
    (vacates : state.Vacates limit call token) :
    token ∈ (state.step limit call).issued ∧
      (state.step limit call).key.slots.get? token = none := by
  obtain ⟨now, command⟩ := call
  cases command with
  | release other =>
    obtain ⟨rfl, drawn⟩ := vacates
    exact ⟨drawn, Dict.get?_del_self _ other⟩
  | reserve other pending =>
    obtain ⟨rfl, refused⟩ := vacates
    exact ⟨List.mem_cons_self, refused_gone kept permitted.2.1 refused⟩
  | commit | available => cases vacates

/-- A commit keeps its slot for a minute in every run exactly when it is in time. -/
theorem occupies_iff_inTime {token : Token} {now : ℚ} (kept : state.Kept limit)
    (permitted : state.Permitted ⟨now, .commit token true⟩)
    (done : (commitMinute state.key now token).2 = true) :
    (∀ calls, Along (step limit) Permitted (state.step limit ⟨now, .commit token true⟩) calls →
      ∀ later, (run (step limit) (state.step limit ⟨now, .commit token true⟩) calls).clock ≤ later →
        later < now + 60 →
          (run (step limit) (state.step limit ⟨now, .commit token true⟩) calls).Occupies later
            token) ↔
      state.InTime ⟨now, .commit token true⟩ := by
  constructor
  · intro keeps found deadline dated
    obtain ⟨unchanged, -, result⟩ := commit_found done
    by_contra short
    have early := not_le.mp short
    -- no call follows, and the key is gone before the minute is over
    obtain ⟨later, after, before⟩ := exists_between (max_lt early (by linarith : now < now + 60))
    have passed := (le_max_left deadline now).trans_lt after
    obtain ⟨score, counted⟩ :=
      keeps [] trivial later ((le_max_right deadline now).trans after.le) before
    have key : (state.step limit ⟨now, .commit token true⟩).key = state.key.zadd token now := result
    have stored := (Key.get?_of_counted counted).1
    rw [run_nil, key] at stored
    rw [unchanged] at dated
    have vanished : (state.key.zadd token now).seen later = Key.absent := by
      simp only [Key.seen, Key.zadd, Option.mem_def.mp dated, passed, if_true]
    rw [vanished] at stored
    cases (Dict.get?_empty token).symm.trans stored
  · intro inTime calls along later reached within
    have holds := @commit_holds limit state ⟨now, .commit token true⟩ token true kept rfl inTime
      done
    have member : (token, now) ∈ (state.step limit ⟨now, .commit token true⟩).spent := by
      apply List.mem_append_left
      simp only [spends, done, Bool.and_self, if_true, List.mem_singleton]
    have after := run_holds (step_kept kept permitted) member holds along
      (reached.trans_lt within)
    exact occupies_of_holds after within

end Minute

/-! ## Runs in the process -/

namespace Local

theorem get?_of_isEmpty {entries : Dict Token ℚ} (none : entries.keys.isEmpty = true)
    (token : Token) : entries.get? token = .none := by
  by_contra stored
  obtain ⟨expires, found⟩ := Option.ne_none_iff_exists'.mp stored
  have member := Dict.mem_keys_of_get? found
  rw [List.isEmpty_iff.mp none] at member
  exact List.not_mem_nil member

/-- The head of `reserve` drops what has expired and nothing else. -/
theorem prune_get? (table : Local) (now : ℚ) (scope : Scope) (token : Token) :
    ((table.prune now).entries scope).get? token =
      ((table.entries scope).get? token).filter fun expires => decide (now < expires) := by
  simp only [entries, prune, Dict.getD, Dict.get?_retain, Dict.get?_map]
  cases table.get? scope with
  | none => rfl
  | some stored =>
    simp only [Option.map_some, Option.getD_some]
    rw [← Dict.get?_retain stored fun _ expires => decide (now < expires)]
    rcases live : (stored.retain fun _ expires => decide (now < expires)).keys.isEmpty with _ | _
    · rw [Option.filter_some, live]
      rfl
    · rw [Option.filter_some, live, get?_of_isEmpty live token]
      exact Dict.get?_empty token

theorem prune_keys_le (table : Local) (now : ℚ) (scope : Scope) :
    ((table.prune now).entries scope).keys.length ≤ (table.entries scope).keys.length := by
  apply Dict.keys_le_of_subset
  intro token expires found
  rw [prune_get?] at found
  exact ⟨expires, (Option.filter_eq_some_iff.mp found).1⟩

theorem entries_set (table : Local) (scope other : Scope) (entries : Dict Token ℚ) :
    Local.entries (table.set scope entries) other =
      if other = scope then entries else table.entries other := by
  simp only [Local.entries, Dict.getD, Dict.get?_set]
  split
  · rfl
  · rfl

theorem entries_reserve (table : Local) (now : ℚ) (scope other : Scope) (limit : Nat)
    (token : Token) (pending : ℚ) :
    (table.reserve now scope limit token pending).1.entries other =
      if other = scope ∧ ((table.prune now).entries scope).keys.length < limit then
        ((table.prune now).entries scope).set token (now + pending + 60)
      else (table.prune now).entries other := by
  simp only [reserve]
  split
  · next full =>
      have same : entries ((table.prune now).set scope ((table.prune now).entries scope)) other =
          (table.prune now).entries other := by
        rw [entries_set]
        split
        · next here => rw [here]
        · rfl
      rw [if_neg fun both => absurd both.2 (Nat.not_lt.mpr full)]
      split
      · exact same
      · exact same
  · next free =>
      rw [entries_set, entries_set]
      by_cases here : other = scope
      · rw [if_pos here, if_pos ⟨here, Nat.lt_of_not_le free⟩]
      · rw [if_neg here, if_neg here, if_neg fun both => here both.1]

theorem entries_commit (table : Local) (now : ℚ) (scope other : Scope) (token : Token) :
    (table.commit now scope token).1.entries other =
      if other = scope ∧ ((table.entries scope).get? token).isSome then
        (table.entries scope).set token (now + 60)
      else table.entries other := by
  simp only [commit]
  cases found : (table.entries scope).get? token with
  | none => exact (if_neg fun both => Bool.false_ne_true both.2).symm
  | some old => simp only [entries_set, Option.isSome_some, and_true]

theorem release_get? (table : Local) (scope other : Scope) (token key : Token) :
    ((table.release scope token).entries other).get? key =
      if other = scope ∧ key = token then none else (table.entries other).get? key := by
  simp only [entries, release, Dict.getD, Dict.get?_modify]
  by_cases here : other = scope
  · rw [if_pos here]
    cases table.get? other with
    | none => exact (Dict.get?_empty key).trans (by rw [Option.getD_none, Dict.get?_empty, ite_self])
    | some stored =>
      simp only [Option.map_some, Option.getD_some, Dict.get?_del, here, true_and]
  · rw [if_neg here, if_neg fun both => here both.1]

end Local

/-- A call about another reservation keeps one that has not expired. -/
theorem serveLocal_get? {table : Local} {call : LocalCall} {scope : Scope} {token : Token}
    {expires : ℚ} (found : (table.entries scope).get? token = some expires)
    (live : call.now < expires)
    (apart : call.scope = scope → call.command.subject ≠ some token) :
    ((serveLocal table call).entries scope).get? token = some expires := by
  obtain ⟨⟨now, command⟩, here, limit⟩ := call
  have kept : ((table.prune now).entries scope).get? token = some expires := by
    rw [Local.prune_get?, found]
    exact Option.filter_eq_some_iff.mpr ⟨rfl, decide_eq_true live⟩
  cases command with
  | reserve other pending =>
    simp only [serveLocal, Local.entries_reserve]
    split
    · next both =>
        have ne : token ≠ other := fun same => apart both.1.symm (congrArg some same.symm)
        rw [Dict.get?_set_ne _ _ ne, ← both.1]
        exact kept
    · exact kept
  | commit other heard =>
    simp only [serveLocal, Local.entries_commit]
    split
    · next both =>
        have ne : token ≠ other := fun same => apart both.1.symm (congrArg some same.symm)
        rw [Dict.get?_set_ne _ _ ne, ← both.1]
        exact found
    · exact found
  | release other =>
    rw [serveLocal, Local.release_get?, if_neg]
    · exact found
    · rintro ⟨same, rfl⟩
      exact apart same.symm rfl
  | available => exact found

theorem get?_of_serveLocal {table : Local} {call : LocalCall} {scope : Scope} {token : Token}
    {expires : ℚ} (found : ((serveLocal table call).entries scope).get? token = some expires) :
    token ∈ call.command.draws ∨ ∃ before, (table.entries scope).get? token = some before := by
  obtain ⟨⟨now, command⟩, here, limit⟩ := call
  cases command with
  | reserve other pending =>
    by_cases same : token = other
    · exact .inl (List.mem_singleton.mpr same)
    · right
      have kept : ((table.prune now).entries scope).get? token = some expires := by
        simp only [serveLocal, Local.entries_reserve] at found
        split at found
        · next both =>
            rw [Dict.get?_set_ne _ _ same, ← both.1] at found
            exact found
        · exact found
      rw [Local.prune_get?] at kept
      exact ⟨expires, (Option.filter_eq_some_iff.mp kept).1⟩
  | commit other heard =>
    right
    simp only [serveLocal, Local.entries_commit] at found
    split at found
    · next both =>
        by_cases same : token = other
        · rw [both.1, same]
          exact Option.isSome_iff_exists.mp both.2
        · rw [Dict.get?_set_ne _ _ same, ← both.1] at found
          exact ⟨expires, found⟩
    · exact ⟨expires, found⟩
  | release other =>
    right
    rw [serveLocal, Local.release_get?] at found
    split at found
    · cases found
    · exact ⟨expires, found⟩
  | available => exact .inr ⟨expires, found⟩

theorem serveLocal_keys_le {table : Local} {call : LocalCall} {scope : Scope} {limit : Nat}
    (room : (table.entries scope).keys.length ≤ limit)
    (one : call.scope = scope → call.limit = limit) :
    ((serveLocal table call).entries scope).keys.length ≤ limit := by
  obtain ⟨⟨now, command⟩, here, passed⟩ := call
  have pruned := (table.prune_keys_le now scope).trans room
  cases command with
  | reserve other pending =>
    simp only [serveLocal, Local.entries_reserve]
    split
    · next both =>
        have free := both.2.trans_eq (one both.1.symm)
        exact (Dict.keys_set_le _ _ _).trans free
    · exact pruned
  | commit other heard =>
    simp only [serveLocal, Local.entries_commit]
    split
    · next both =>
        obtain ⟨old, found⟩ := Option.isSome_iff_exists.mp both.2
        rw [Dict.keys_set_of_get? found, ← both.1]
        exact room
    · exact room
  | release other =>
    apply le_trans _ room
    apply Dict.keys_le_of_subset
    intro token expires found
    rcases @get?_of_serveLocal table ⟨⟨now, .release other⟩, here, passed⟩ scope token expires
      found with drawn | old
    · cases drawn
    · exact old
  | available => exact room

namespace LocalMinute

variable {scope : Scope} {limit : Nat} {state : LocalMinute} {call : LocalCall}

/-- What every run keeps: the facts of the server's run, with nothing left out
of the window before its minute is over. -/
structure Kept (scope : Scope) (limit : Nat) (state : LocalMinute) : Prop where
  dated : Window.Dated state.clock state.spent
  drawn : ∀ use ∈ state.spent, use.1 ∈ state.issued
  known : ∀ token expires, (state.table.entries scope).get? token = some expires →
    token ∈ state.issued
  room : (state.table.entries scope).keys.length ≤ limit
  covered : ∀ use ∈ state.spent, state.clock < use.2 + 60 →
    (state.table.entries scope).get? use.1 = some (use.2 + 60)
  bounded : Window.Bounded 60 limit state.spent

theorem commit_found {table : Local} {now : ℚ} {here : Scope} {token : Token}
    (done : (table.commit now here token).2 = true) :
    ∃ expires, (table.entries here).get? token = some expires := by
  simp only [Local.commit] at done
  split at done
  · cases done
  · next expires found => exact ⟨expires, found⟩

/-- The commits of one call for the scope: none, or one that was not made before. -/
theorem spends_cases (scope : Scope) (state : LocalMinute) (call : LocalCall) :
    state.spends scope call = [] ∨
      ∃ token heard, call.command = .commit token heard ∧ call.scope = scope ∧
        (state.table.commit call.now scope token).2 = true ∧
          state.spends scope call = [(token, call.now)] := by
  obtain ⟨⟨now, command⟩, here, passed⟩ := call
  cases command with
  | commit token heard =>
    simp only [spends]
    split
    · next done =>
        obtain ⟨both, same⟩ := Bool.and_eq_true_iff.mp done
        cases of_decide_eq_true same
        exact .inr ⟨token, heard, rfl, rfl, (Bool.and_eq_true_iff.mp both).2, rfl⟩
    · exact .inl rfl
  | reserve | release | available => exact .inl rfl

theorem subject_ne {use : Token × ℚ} (kept : state.Kept scope limit)
    (permitted : state.Permitted scope limit call) (member : use ∈ state.spent)
    (here : call.scope = scope) : call.command.subject ≠ some use.1 := by
  obtain ⟨⟨now, command⟩, there, passed⟩ := call
  have listed : use.1 ∈ state.spent.map Prod.fst := List.mem_map_of_mem member
  have usual := (permitted.2.2 here).2
  cases command with
  | reserve token pending =>
    rintro ⟨⟩
    exact usual.1 (kept.drawn use member)
  | commit token heard | release token =>
    rintro ⟨⟩
    exact usual listed
  | available => exact nofun

theorem step_kept (kept : state.Kept scope limit) (permitted : state.Permitted scope limit call) :
    (state.step scope call).Kept scope limit := by
  have later := kept.dated.later permitted.1
  have known : ∀ token expires,
      ((state.step scope call).table.entries scope).get? token = some expires →
        token ∈ (state.step scope call).issued := by
    intro token expires found
    rcases get?_of_serveLocal found with drawn | ⟨before, stored⟩
    · exact List.mem_append_left _ drawn
    · exact List.mem_append_right _ (kept.known token before stored)
  have room : ((state.step scope call).table.entries scope).keys.length ≤ limit :=
    serveLocal_keys_le kept.room fun here => (permitted.2.2 here).1
  have earlier : ∀ use ∈ state.spent, call.now < use.2 + 60 →
      ((state.step scope call).table.entries scope).get? use.1 = some (use.2 + 60) := by
    intro use member current
    exact serveLocal_get? (kept.covered use member (permitted.1.trans_lt current)) current
      (subject_ne kept permitted member)
  rcases state.spends_cases scope call with none | ⟨token, heard, same, here, done, one⟩
  · have unchanged : (state.step scope call).spent = state.spent :=
      congrArg (· ++ state.spent) none
    refine ⟨unchanged.symm ▸ later, ?_, known, room, ?_, unchanged.symm ▸ kept.bounded⟩
    · intro use member
      rw [unchanged] at member
      exact List.mem_append_right _ (kept.drawn use member)
    · intro use member current
      rw [unchanged] at member
      exact earlier use member current
  · have fresh : token ∉ state.spent.map Prod.fst := by
      have usual := (permitted.2.2 here).2
      rw [same] at usual
      exact usual
    have grown : (state.step scope call).spent = (token, call.now) :: state.spent :=
      congrArg (· ++ state.spent) one
    obtain ⟨expires, stored⟩ := commit_found done
    have written : ((state.step scope call).table.entries scope).get? token =
        some (call.now + 60) := by
      simp only [step, serveLocal, same, here, Local.entries_commit, stored, Option.isSome_some,
        and_self, if_true, Dict.get?_set_self]
    have covered : ∀ use ∈ (token, call.now) :: state.spent, call.now < use.2 + 60 →
        ((state.step scope call).table.entries scope).get? use.1 = some (use.2 + 60) := by
      intro use member current
      rcases List.mem_cons.mp member with rfl | before
      · exact written
      · exact earlier use before current
    have dated := later.spend fresh
    refine ⟨grown.symm ▸ dated, ?_, known, room, grown.symm ▸ covered, grown.symm ▸ ?_⟩
    · intro use member
      rw [grown] at member
      rcases List.mem_cons.mp member with rfl | before
      · exact List.mem_append_right _ (kept.known token expires stored)
      · exact List.mem_append_right _ (kept.drawn use before)
    · apply kept.bounded.spend dated ?_ room
      intro use member current
      exact Dict.mem_keys_of_get? (covered use member current)

theorem start_kept (scope : Scope) (limit : Nat) (clock : ℚ) :
    (start clock).Kept scope limit := by
  have empty : ∀ token, ((start clock).table.entries scope).get? token = none := Dict.get?_empty
  constructor
  · exact Window.dated_nil clock
  · exact fun use member => absurd member List.not_mem_nil
  · intro token expires found
    cases (empty token).symm.trans found
  · exact Nat.zero_le limit
  · exact fun use member => absurd member List.not_mem_nil
  · exact Window.bounded_nil 60 limit

theorem reachable_kept {clock : ℚ}
    (reachable : Reachable (step scope) (Permitted scope limit) (start clock) state) :
    state.Kept scope limit :=
  reachable.invariant (start_kept scope limit clock) fun _ _ kept permitted =>
    step_kept kept permitted

theorem occupies_of_get? {token : Token} {expires now : ℚ}
    (found : (state.table.entries scope).get? token = some expires) (live : now < expires) :
    state.Occupies scope now token := by
  refine ⟨expires, ?_⟩
  rw [Local.prune_get?, found]
  exact Option.filter_eq_some_iff.mpr ⟨rfl, decide_eq_true live⟩

/-- A token that was drawn and is not stored never comes back. -/
theorem run_gone {token : Token} {calls : List LocalCall} (drawn : token ∈ state.issued)
    (gone : (state.table.entries scope).get? token = none)
    (along : Along (step scope) (Permitted scope limit) state calls) :
    ((run (step scope) state calls).table.entries scope).get? token = none := by
  have all : token ∈ (run (step scope) state calls).issued ∧
      ((run (step scope) state calls).table.entries scope).get? token = none := by
    apply along.carries (fun state => token ∈ state.issued ∧
      (state.table.entries scope).get? token = none) ⟨drawn, gone⟩
    rintro state call ⟨drawn, gone⟩ permitted
    refine ⟨List.mem_append_right _ drawn, ?_⟩
    by_contra stored
    obtain ⟨expires, found⟩ := Option.ne_none_iff_exists'.mp stored
    rcases get?_of_serveLocal found with again | ⟨before, kept⟩
    · exact permitted.2.1 token again drawn
    · cases gone.symm.trans kept
  exact all.2

theorem not_occupies {token : Token} (now : ℚ)
    (gone : (state.table.entries scope).get? token = none) : ¬ state.Occupies scope now token := by
  rintro ⟨expires, found⟩
  rw [Local.prune_get?, gone] at found
  cases found

theorem refused_gone {token : Token} {pending now : ℚ} (kept : state.Kept scope limit)
    (fresh : token ∉ state.issued)
    (refused : (state.table.reserve now scope limit token pending).2 ≠ .admitted) :
    ((state.table.reserve now scope limit token pending).1.entries scope).get? token = none := by
  rw [Local.entries_reserve, if_neg]
  · by_contra stored
    obtain ⟨expires, found⟩ := Option.ne_none_iff_exists'.mp stored
    rw [Local.prune_get?] at found
    exact fresh (kept.known token expires (Option.filter_eq_some_iff.mp found).1)
  · rintro ⟨-, free⟩
    simp only [Local.reserve, if_neg (Nat.not_le.mpr free)] at refused
    exact refused rfl

/-- The call is the refund of this reservation, or its refusal. -/
def Vacates (scope : Scope) (limit : Nat) (state : LocalMinute) (call : LocalCall)
    (token : Token) : Prop :=
  call.scope = scope ∧
    match call.command with
    | .release other => other = token ∧ token ∈ state.issued
    | .reserve other pending =>
      other = token ∧ (state.table.reserve call.now scope limit token pending).2 ≠ .admitted
    | _ => False

theorem vacates_gone {token : Token} (kept : state.Kept scope limit)
    (permitted : state.Permitted scope limit call)
    (vacates : state.Vacates scope limit call token) :
    token ∈ (state.step scope call).issued ∧
      ((state.step scope call).table.entries scope).get? token = none := by
  obtain ⟨⟨now, command⟩, here, passed⟩ := call
  obtain ⟨rfl, vacates⟩ := vacates
  cases command with
  | release other =>
    obtain ⟨rfl, drawn⟩ := vacates
    refine ⟨drawn, ?_⟩
    simp only [step, serveLocal, Local.release_get?, and_self, if_true]
  | reserve other pending =>
    obtain ⟨rfl, refused⟩ := vacates
    obtain ⟨rfl, usual⟩ := permitted.2.2 rfl
    exact ⟨List.mem_cons_self, refused_gone kept usual.1 refused⟩
  | commit | available => cases vacates

end LocalMinute

/-! ## Every minute -/

/-- Where every commit is in time, no window of sixty seconds of the server's
clock holds more commits than the limit and each commit keeps its slot for its
minute; a commit that is not in time can lose its slot.  Refunded and refused
reservations have no slot.  In the process every commit is in time. -/
theorem commits_per_minute (limit : Nat) (clock : ℚ) (scope : Scope) :
    (∀ calls, Along (Minute.step limit) (fun state call => state.Permitted call ∧ state.InTime call)
        (Minute.start clock) calls →
      Window.Bounded 60 limit (run (Minute.step limit) (Minute.start clock) calls).spent ∧
        ∀ use ∈ (run (Minute.step limit) (Minute.start clock) calls).spent, ∀ now,
          (run (Minute.step limit) (Minute.start clock) calls).clock ≤ now → now < use.2 + 60 →
            (run (Minute.step limit) (Minute.start clock) calls).Occupies now use.1) ∧
    (∀ state, Reachable (Minute.step limit) Minute.Permitted (Minute.start clock) state →
      (∀ token now, state.Permitted ⟨now, .commit token true⟩ →
        (commitMinute state.key now token).2 = true →
          ((∀ calls, Along (Minute.step limit) Minute.Permitted
              (state.step limit ⟨now, .commit token true⟩) calls →
            ∀ later, (run (Minute.step limit) (state.step limit ⟨now, .commit token true⟩)
                calls).clock ≤ later → later < now + 60 →
              (run (Minute.step limit) (state.step limit ⟨now, .commit token true⟩)
                calls).Occupies later token) ↔
            state.InTime ⟨now, .commit token true⟩)) ∧
      ∀ call token, state.Permitted call → state.Vacates limit call token →
        ∀ calls, Along (Minute.step limit) Minute.Permitted (state.step limit call) calls →
          ∀ now, ¬ (run (Minute.step limit) (state.step limit call) calls).Occupies now token) ∧
    ∀ state, Reachable (LocalMinute.step scope) (LocalMinute.Permitted scope limit)
        (LocalMinute.start clock) state →
      Window.Bounded 60 limit state.spent ∧
      (∀ use ∈ state.spent, ∀ now, state.clock ≤ now → now < use.2 + 60 →
        state.Occupies scope now use.1) ∧
      ∀ call token, state.Permitted scope limit call → state.Vacates scope limit call token →
        ∀ calls, Along (LocalMinute.step scope) (LocalMinute.Permitted scope limit)
            (state.step scope call) calls →
          ∀ now, ¬ (run (LocalMinute.step scope) (state.step scope call) calls).Occupies scope now
            token := by
  refine ⟨?_, ?_, ?_⟩
  · intro calls along
    have safe := Minute.run_safe along
    refine ⟨safe.bounded, fun use member now reached within => ?_⟩
    exact Minute.occupies_of_holds (safe.covered use member (reached.trans_lt within)) within
  · intro state reachable
    have kept := Minute.reachable_kept reachable
    constructor
    · intro token now permitted done
      exact Minute.occupies_iff_inTime kept permitted done
    · intro call token permitted vacates calls along now
      obtain ⟨drawn, gone⟩ := Minute.vacates_gone kept permitted vacates
      exact Minute.not_occupies now (Minute.run_gone drawn gone along)
  · intro state reachable
    have kept := LocalMinute.reachable_kept reachable
    refine ⟨kept.bounded, ?_, ?_⟩
    · intro use member now reached within
      exact LocalMinute.occupies_of_get? (kept.covered use member (reached.trans_lt within)) within
    · intro call token permitted vacates calls along now
      obtain ⟨drawn, gone⟩ := LocalMinute.vacates_gone kept permitted vacates
      exact LocalMinute.not_occupies now (LocalMinute.run_gone drawn gone along)

/-- One reservation committed at once, and one refunded. -/
def promptCalls : List Call :=
  [⟨0, .reserve "first" 0⟩, ⟨0, .commit "first" true⟩, ⟨1, .reserve "second" 30⟩,
    ⟨2, .release "second"⟩]

def promptLocalCalls : List LocalCall :=
  promptCalls.map fun call => ⟨call, "scope", 2⟩

theorem commits_per_minute_prompt :
    (Window.Bounded 60 2 (run (Minute.step 2) (Minute.start 0) promptCalls).spent ∧
      (run (Minute.step 2) (Minute.start 0) promptCalls).Occupies 59 "first") ∧
    ((run (Minute.step 2) (Minute.start 0) (promptCalls.take 2)).Occupies 59 "first" ∧
      ¬ (run (Minute.step 2) (Minute.start 0) promptCalls).Occupies 3 "second") ∧
    Window.Bounded 60 2
        (run (LocalMinute.step "scope") (LocalMinute.start 0) promptLocalCalls).spent ∧
      (run (LocalMinute.step "scope") (LocalMinute.start 0) promptLocalCalls).Occupies "scope" 59
        "first" ∧
      ¬ (run (LocalMinute.step "scope") (LocalMinute.start 0) promptLocalCalls).Occupies "scope" 3
        "second" := by
  obtain ⟨server, reached, process⟩ := commits_per_minute 2 0 "scope"
  have safe := server promptCalls (by decide +kernel)
  have before := reached _ ⟨promptCalls.take 1, by decide +kernel, rfl⟩
  have refund := reached _ ⟨promptCalls.take 3, by decide +kernel, rfl⟩
  have here := process _ ⟨promptLocalCalls, by decide +kernel, rfl⟩
  have there := process _ ⟨promptLocalCalls.take 3, by decide +kernel, rfl⟩
  refine ⟨⟨safe.1, ?_⟩, ⟨?_, ?_⟩, here.1, ?_, ?_⟩
  · exact safe.2 ("first", 0) (by decide +kernel) 59 (by decide +kernel) (by norm_num)
  · exact (before.1 "first" 0 (by decide +kernel) (by decide +kernel)).mpr (by decide +kernel) []
      trivial 59 (by decide +kernel) (by norm_num)
  · exact refund.2 ⟨2, .release "second"⟩ "second" (by decide +kernel)
      ⟨rfl, by decide +kernel⟩ [] trivial 3
  · exact here.2.1 ("first", 0) (by decide +kernel) 59 (by decide +kernel) (by norm_num)
  · exact there.2.2 ⟨⟨2, .release "second"⟩, "scope", 2⟩ "second" (by decide +kernel)
      ⟨rfl, rfl, by decide +kernel⟩ [] trivial 3

/-- A commit half a minute after its reservation: the key expires at second
sixty-one, and a second commit follows. -/
def lateCalls : List Call :=
  [⟨0, .reserve "first" 0⟩, ⟨30, .commit "first" true⟩, ⟨62, .reserve "second" 0⟩,
    ⟨62, .commit "second" true⟩]

theorem two_commits_of_one :
    ¬ ∀ (limit : Nat) (clock : ℚ) (calls : List Call),
      Along (Minute.step limit) Minute.Permitted (Minute.start clock) calls →
        Window.Bounded 60 limit (run (Minute.step limit) (Minute.start clock) calls).spent := by
  intro bounded
  have one := bounded 1 0 lateCalls (by decide +kernel) 30
  revert one
  decide +kernel

end BobbyBotique.Providers
