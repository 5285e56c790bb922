import BobbyBotique.Admission.Semaphore

/-!
# The admission limit

A reply that confirms a token stands for an entry of the sorted set whose score
is no older than the instant the request was sent.  The server drops such an
entry by age only after the local lease has ended, so the scopes whose lease is
valid are at most the entries, and those are at most the limit.
-/

namespace BobbyBotique.Admission

/-! ## What one command does to the sorted set -/

theorem zremrangebyscore_get? {slots : Dict Token ℚ} {bound score : ℚ} {token : Token}
    (found : slots.get? token = some score) (young : bound < score) :
    (zremrangebyscore slots bound).get? token = some score := by
  apply (slots.get?_retain_eq_some _ token score).mpr
  refine ⟨found, ?_⟩
  rw [decide_eq_false (not_le.mpr young), Bool.and_false, Bool.not_false]

/-- A command other than the release of a token keeps a young entry of it, or
renews its score. -/
theorem serve_get? {config : Config} {slots : Dict Token ℚ} {now score : ℚ} {request : Request}
    {token : Token} (found : slots.get? token = some score)
    (young : now - config.leaseTtl < score)
    (kept : ¬ (request.token = token ∧ request.command = .release)) :
    (serve config slots now request).1.get? token = some score ∨
      (serve config slots now request).1.get? token = some now := by
  obtain ⟨command, name, started⟩ := request
  cases command with
  | admitSlot =>
    have swept := zremrangebyscore_get? found young
    simp only [serve, admitSlot]
    split
    · exact .inl swept
    · simp only [Dict.get?_set]
      split
      · exact .inr rfl
      · exact .inl swept
  | renewSlot =>
    simp only [serve, renewSlot]
    split
    · exact .inl found
    · simp only [Dict.get?_set]
      split
      · exact .inr rfl
      · exact .inl found
  | release =>
    have apart : token ≠ name := fun same => kept ⟨same.symm, rfl⟩
    left
    exact (slots.get?_del_ne apart).trans found

/-- A confirmed admission or renewal leaves the token with the current score. -/
theorem serve_confirms {config : Config} {slots : Dict Token ℚ} {now : ℚ} {request : Request}
    (confirmed : (serve config slots now request).2 = 1) (command : request.command ≠ .release) :
    (serve config slots now request).1.get? request.token = some now := by
  obtain ⟨name, token, started⟩ := request
  cases name with
  | admitSlot =>
    simp only [serve, admitSlot] at confirmed ⊢
    split at confirmed
    · cases confirmed
    · rename_i room
      rw [if_neg room]
      exact (Dict.get?_set _ token token now).trans (if_pos rfl)
  | renewSlot =>
    simp only [serve, renewSlot] at confirmed ⊢
    split at confirmed
    · cases confirmed
    · rename_i old found
      simp only
      exact (Dict.get?_set _ token token now).trans (if_pos rfl)
  | release => exact absurd rfl command

theorem serve_within {config : Config} {slots : Dict Token ℚ} (now : ℚ) (request : Request)
    (within : slots.keys.length ≤ config.limit) :
    (serve config slots now request).1.keys.length ≤ config.limit := by
  obtain ⟨command, token, started⟩ := request
  cases command with
  | admitSlot =>
    have kept : (zremrangebyscore slots (now - config.leaseTtl)).keys.length ≤ config.limit :=
      (slots.keys_retain_le _).trans within
    simp only [serve, admitSlot]
    split
    · exact kept
    · rename_i room
      have grown := (zremrangebyscore slots (now - config.leaseTtl)).keys_set_le token now
      exact grown.trans (not_le.mp room)
  | renewSlot =>
    simp only [serve, renewSlot]
    split
    · exact within
    · rename_i old found
      exact (Dict.keys_set_of_get? found now).trans_le within
  | release => exact (slots.keys_del_le token).trans within

/-! ## What one coroutine step does to its scope -/

/-- A scope changes: it may send requests of its own, awaits only a request of
its own, and takes its confirmation from the reply it awaits. -/
structure Update (config : Config) (net next : Network) (token : Token) : Prop where
  changes : ∃ before after : SemaphoreScope, ∃ sent : List Request,
    net.scopes.get? token = some before ∧
    next = { net with
      scopes := net.scopes.set token after, requests := net.requests ++ sent } ∧
    (∀ request ∈ sent, request.token = token ∧ request.started = before.now config net.clock) ∧
    after.process = before.process ∧
    (∀ number, after.awaiting = some number → before.awaiting = some number ∨
      ∃ request, (net.requests ++ sent)[number]? = some request ∧ request.command ≠ .release) ∧
    ∀ confirmed, after.lastConfirmed = some confirmed → before.lastConfirmed = some confirmed ∨
        ∃ reply ∈ net.replies, before.awaiting = some reply.number ∧
          reply.request.token = token ∧ reply.value = 1 ∧ reply.request.started = confirmed

namespace Network

variable {config : Config} {net : Network} {token : Token} {scope : SemaphoreScope}

/-- `setScope` alone is an update when nothing new is awaited. -/
theorem setScope_update {after : SemaphoreScope} (found : net.scopes.get? token = some scope)
    (process : after.process = scope.process)
    (awaits : ∀ number, after.awaiting = some number → scope.awaiting = some number)
    (confirms : ∀ confirmed, after.lastConfirmed = some confirmed →
      scope.lastConfirmed = some confirmed ∨
        ∃ reply ∈ net.replies, scope.awaiting = some reply.number ∧
          reply.request.token = token ∧ reply.value = 1 ∧ reply.request.started = confirmed) :
    Update config net (net.setScope token after) token := by
  constructor
  refine ⟨scope, after, [], found, ?_, ?_, process, ?_, confirms⟩
  · simp only [setScope, List.append_nil]
  · intro request member
    cases member
  · intro number awaiting
    exact .inl (awaits number awaiting)

theorem leave_update {after : SemaphoreScope} (found : net.scopes.get? token = some scope)
    (process : after.process = scope.process)
    (confirms : ∀ confirmed, after.lastConfirmed = some confirmed →
      scope.lastConfirmed = some confirmed ∨
        ∃ reply ∈ net.replies, scope.awaiting = some reply.number ∧
          reply.request.token = token ∧ reply.value = 1 ∧ reply.request.started = confirmed) :
    Update config net (net.leave config token after) token := by
  constructor
  refine ⟨scope, after.exit, [⟨.release, token, after.now config net.clock⟩], found, rfl, ?_,
    process, ?_, confirms⟩
  · intro request member
    rw [List.mem_singleton.mp member]
    refine ⟨rfl, ?_⟩
    simp only [SemaphoreScope.now, process]
  · intro number awaiting
    cases awaiting

theorem await_update {command : SlotCommand} (found : net.scopes.get? token = some scope)
    (asks : command ≠ .release) :
    Update config net (net.await config command token scope) token := by
  constructor
  refine ⟨scope, { scope with awaiting := some net.requests.length },
    [⟨command, token, scope.now config net.clock⟩], found, rfl, ?_, rfl, ?_, ?_⟩
  · intro request member
    rw [List.mem_singleton.mp member]
    exact ⟨rfl, rfl⟩
  · rintro number awaiting
    cases awaiting
    right
    exact ⟨_, List.getElem?_concat_length, asks⟩
  · intro confirmed known
    exact .inl known

theorem sendAdmission_update (found : net.scopes.get? token = some scope) :
    net.sendAdmission config token scope = net ∨
      Update config net (net.sendAdmission config token scope) token := by
  unfold sendAdmission
  split
  · right
    split
    · exact leave_update found rfl fun _ => .inl
    · exact await_update found (by decide)
  · exact .inl rfl

theorem sendRenewal_update (found : net.scopes.get? token = some scope) :
    net.sendRenewal config token scope = net ∨
      Update config net (net.sendRenewal config token scope) token := by
  unfold sendRenewal
  split
  · right
    split
    · exact await_update found (by decide)
    · apply setScope_update found (show scope.loseLease.process = scope.process from rfl)
      · intro number awaiting
        cases awaiting
      · exact fun _ => .inl
  · exact .inl rfl

theorem fail_update (found : net.scopes.get? token = some scope) :
    net.fail config token scope = net ∨
      Update config net (net.fail config token scope) token := by
  have dropped : ∀ after : SemaphoreScope, after.process = scope.process →
      after.awaiting = none → after.lastConfirmed = scope.lastConfirmed →
      Update config net (net.setScope token after) token := by
    intro after process awaiting confirmed
    apply setScope_update found process
    · intro number awaited
      rw [awaiting] at awaited
      cases awaited
    · intro instant known
      exact .inl (confirmed ▸ known)
  unfold fail
  split
  · exact .inl rfl
  · split
    · right
      split
      · exact leave_update found rfl fun _ => .inl
      · exact dropped _ rfl rfl rfl
    · right
      split
      · exact dropped _ rfl rfl rfl
      · exact dropped _ rfl rfl rfl
    · exact .inl rfl

/-- What the coroutine makes of its reply: the confirmation is the instant the
request was sent, and only for the value 1. -/
theorem receive_scope (config : Config) (clock : ℚ) (scope : SemaphoreScope) (reply : Reply) :
    (scope.receive config clock reply).1.process = scope.process ∧
      (∀ number, (scope.receive config clock reply).1.awaiting = some number →
        scope.awaiting = some number) ∧
      ∀ confirmed, (scope.receive config clock reply).1.lastConfirmed = some confirmed →
        scope.lastConfirmed = some confirmed ∨
          reply.value = 1 ∧ reply.request.started = confirmed := by
  unfold SemaphoreScope.receive SemaphoreScope.loseLease
  cases scope.phase with
  | acquiring | inside => split_ifs <;> simp_all
  | leaving => simp_all

theorem receive_update {reply : Reply} (found : net.scopes.get? reply.request.token = some scope) :
    net.receive config reply scope = net ∨
      Update config net (net.receive config reply scope) reply.request.token := by
  obtain ⟨process, awaits, confirms⟩ := receive_scope config net.clock scope reply
  unfold receive
  split
  · rename_i delivered
    have known : ∀ confirmed,
        (scope.receive config net.clock reply).1.lastConfirmed = some confirmed →
        scope.lastConfirmed = some confirmed ∨
          ∃ answer ∈ net.replies, scope.awaiting = some answer.number ∧
            answer.request.token = reply.request.token ∧ answer.value = 1 ∧
            answer.request.started = confirmed := by
      intro confirmed stored
      apply (confirms confirmed stored).imp id
      rintro ⟨value, started⟩
      exact ⟨reply, delivered.1, delivered.2, rfl, value, started⟩
    right
    simp only
    split
    · exact leave_update found process known
    · exact setScope_update found process awaits known
  · exact .inl rfl

/-! ## The invariant -/

/-- A reply that confirms a token. -/
def confirms (reply : Reply) : Prop := reply.value = 1 ∧ reply.request.command ≠ .release

structure Sound (config : Config) (net : Network) : Prop where
  within : net.slots.keys.length ≤ config.limit
  sent : ∀ request ∈ net.requests, ∃ scope, net.scopes.get? request.token = some scope ∧
    request.started ≤ scope.now config net.clock
  answered : ∀ reply ∈ net.replies, net.requests[reply.number]? = some reply.request
  awaited : ∀ token scope, net.scopes.get? token = some scope → ∀ number,
    scope.awaiting = some number →
      ∃ request, net.requests[number]? = some request ∧ request.command ≠ .release
  confirmed : ∀ token scope, net.scopes.get? token = some scope → ∀ instant,
    scope.lastConfirmed = some instant →
      ∃ reply ∈ net.replies, confirms reply ∧ reply.request.token = token ∧
        reply.request.started = instant
  entry : ∀ reply ∈ net.replies, confirms reply → ¬ net.released reply.request.token →
    ∀ scope, net.scopes.get? reply.request.token = some scope →
      scope.now config net.clock < reply.request.started + config.leaseTtl →
      ∃ score, net.slots.get? reply.request.token = some score ∧
        reply.request.started ≤ score + config.offset scope.process

theorem sound_start (config : Config) (clock : ℚ) : Sound config (start clock) where
  within := Nat.zero_le _
  sent _ member := by cases member
  answered _ member := by cases member
  awaited _ _ found := by cases found
  confirmed _ _ found := by cases found
  entry _ member := by cases member

theorem Sound.advance (sound : Sound config net) {elapsed : ℚ} (forward : 0 ≤ elapsed) :
    Sound config { net with clock := net.clock + elapsed } where
  within := sound.within
  sent request member := by
    obtain ⟨scope, found, before⟩ := sound.sent request member
    refine ⟨scope, found, ?_⟩
    simp only [SemaphoreScope.now] at before ⊢
    linarith
  answered := sound.answered
  awaited := sound.awaited
  confirmed := sound.confirmed
  entry reply member yes unreleased scope found safe := by
    apply sound.entry reply member yes unreleased scope found
    simp only [SemaphoreScope.now] at safe ⊢
    linarith

theorem Sound.enter (sound : Sound config net) (process : Process)
    (fresh : net.scopes.get? token = none) : Sound config (net.enter config process token) := by
  have elsewhere : ∀ {name : Token} {scope : SemaphoreScope}, name ≠ token →
      ((net.enter config process token).scopes.get? name = some scope ↔
        net.scopes.get? name = some scope) := by
    intro name scope apart
    simp only [Network.enter, setScope, net.scopes.get?_set_ne _ apart]
  have known : ∀ request ∈ net.requests, request.token ≠ token := by
    intro request member same
    obtain ⟨scope, found, _⟩ := sound.sent request member
    rw [same, fresh] at found
    cases found
  have replied : ∀ reply ∈ net.replies, reply.request.token ≠ token := fun reply member =>
    known _ (List.mem_of_getElem? (sound.answered reply member))
  constructor
  case within => exact sound.within
  case sent =>
    intro request member
    obtain ⟨scope, found, before⟩ := sound.sent request member
    exact ⟨scope, (elsewhere (known request member)).mpr found, before⟩
  case answered => exact sound.answered
  case awaited =>
    intro name scope found number awaiting
    by_cases same : name = token
    · subst same
      cases (net.scopes.get?_set name name _).symm.trans found |>.symm.trans (if_pos rfl)
      cases awaiting
    · exact sound.awaited name scope ((elsewhere same).mp found) number awaiting
  case confirmed =>
    intro name scope found instant stored
    by_cases same : name = token
    · subst same
      cases (net.scopes.get?_set name name _).symm.trans found |>.symm.trans (if_pos rfl)
      cases stored
    · exact sound.confirmed name scope ((elsewhere same).mp found) instant stored
  case entry =>
    intro reply member yes unreleased scope found safe
    exact sound.entry reply member yes unreleased scope
      ((elsewhere (replied reply member)).mp found) safe

theorem Sound.update {next : Network} (sound : Sound config net)
    (update : Update config net next token) : Sound config next := by
  obtain ⟨before, after, sent, found, rfl, sends, process, awaits, confirms⟩ := update.changes
  have instant : ∀ clock, after.now config clock = before.now config clock := by
    intro clock
    rw [SemaphoreScope.now, SemaphoreScope.now, process]
  -- every scope after the update has a counterpart on the same clock before it
  have counterpart : ∀ {name : Token} {scope : SemaphoreScope},
      (net.scopes.set token after).get? name = some scope →
        ∃ earlier, net.scopes.get? name = some earlier ∧ earlier.process = scope.process ∧
          (name = token ∧ earlier = before ∧ scope = after ∨ earlier = scope) := by
    intro name scope present
    rw [Dict.get?_set] at present
    split at present
    · rename_i same
      cases present
      exact ⟨before, same ▸ found, process.symm, .inl ⟨same, rfl, rfl⟩⟩
    · exact ⟨scope, present, rfl, .inr rfl⟩
  have keeps : ∀ {number : Nat} {request : Request}, net.requests[number]? = some request →
      (net.requests ++ sent)[number]? = some request := by
    intro number request present
    rw [List.getElem?_append_left (List.getElem?_eq_some_iff.mp present).1]
    exact present
  constructor
  case within => exact sound.within
  case sent =>
    intro request member
    have placed : ∃ scope, net.scopes.get? request.token = some scope ∧
        request.started ≤ scope.now config net.clock := by
      rcases List.mem_append.mp member with old | new
      · exact sound.sent request old
      · obtain ⟨same, started⟩ := sends request new
        exact ⟨before, same ▸ found, started.le⟩
    obtain ⟨scope, present, started⟩ := placed
    by_cases same : request.token = token
    · rw [same, found] at present
      cases present
      refine ⟨after, ?_, (instant net.clock).symm ▸ started⟩
      rw [Dict.get?_set, if_pos same]
    · refine ⟨scope, ?_, started⟩
      rw [Dict.get?_set_ne _ _ same]
      exact present
  case answered =>
    intro reply member
    exact keeps (sound.answered reply member)
  case awaited =>
    intro name scope present number awaiting
    obtain ⟨earlier, was, _, ⟨rfl, rfl, rfl⟩ | rfl⟩ := counterpart present
    · rcases awaits number awaiting with old | new
      · obtain ⟨request, listed, asks⟩ := sound.awaited name earlier was number old
        exact ⟨request, keeps listed, asks⟩
      · exact new
    · obtain ⟨request, listed, asks⟩ := sound.awaited name earlier was number awaiting
      exact ⟨request, keeps listed, asks⟩
  case confirmed =>
    intro name scope present moment stored
    obtain ⟨earlier, was, _, ⟨rfl, rfl, rfl⟩ | rfl⟩ := counterpart present
    · rcases confirms moment stored with old | ⟨reply, member, awaited, own, value, started⟩
      · exact sound.confirmed name earlier was moment old
      · obtain ⟨request, listed, asks⟩ := sound.awaited name earlier was reply.number awaited
        cases listed.symm.trans (sound.answered reply member)
        exact ⟨reply, member, ⟨value, asks⟩, own, started⟩
    · exact sound.confirmed name earlier was moment stored
  case entry =>
    intro reply member yes unreleased scope present safe
    obtain ⟨earlier, was, same, _⟩ := counterpart present
    have result := sound.entry reply member yes unreleased earlier was (by
      simp only [SemaphoreScope.now, same] at safe ⊢
      exact safe)
    rw [same] at result
    exact result

theorem Sound.execute {number : Nat} {request : Request} (sound : Sound config net)
    (sent : net.requests[number]? = some request) :
    Sound config (net.execute config number request) := by
  obtain ⟨sender, known, before⟩ := sound.sent request (List.mem_of_getElem? sent)
  constructor
  case within => exact serve_within net.clock request sound.within
  case sent => exact sound.sent
  case answered =>
    intro reply member
    rcases List.mem_append.mp member with old | new
    · exact sound.answered reply old
    · rw [List.mem_singleton.mp new]
      exact sent
  case awaited => exact sound.awaited
  case confirmed =>
    intro name scope found instant stored
    obtain ⟨reply, member, rest⟩ := sound.confirmed name scope found instant stored
    exact ⟨reply, List.mem_append_left _ member, rest⟩
  case entry =>
    intro reply member yes unreleased scope found safe
    rcases List.mem_append.mp member with old | new
    · have before : ¬ net.released reply.request.token := by
        rintro ⟨release, listed, same⟩
        exact unreleased ⟨release, List.mem_append_left _ listed, same⟩
      obtain ⟨score, present, recent⟩ := sound.entry reply old yes before scope found safe
      have young : net.clock - config.leaseTtl < score := by
        have early : net.clock + config.offset scope.process <
            reply.request.started + config.leaseTtl := safe
        linarith
      have kept : ¬ (request.token = reply.request.token ∧ request.command = .release) :=
        fun same => unreleased ⟨_, List.mem_append_right _ (List.mem_singleton.mpr rfl), same⟩
      rcases serve_get? present young kept with same | renewed
      · exact ⟨score, same, recent⟩
      · refine ⟨net.clock, renewed, ?_⟩
        obtain ⟨other, there, started⟩ :=
          sound.sent _ (List.mem_of_getElem? (sound.answered reply old))
        cases there.symm.trans found
        exact started
    · cases List.mem_singleton.mp new
      cases known.symm.trans found
      exact ⟨net.clock, serve_confirms yes.1 yes.2, before⟩

theorem Sound.step (label : Label) (sound : Sound config net) (allowed : net.Allowed label) :
    Sound config (step config net label) := by
  have coroutine : ∀ (name : Token) (change : SemaphoreScope → Network),
      (∀ scope, net.scopes.get? name = some scope →
        change scope = net ∨ Update config net (change scope) name) →
      Sound config ((net.scopes.get? name).elim net change) := by
    intro name change changes
    cases found : net.scopes.get? name with
    | none => exact sound
    | some scope =>
      rcases changes scope found with same | update
      · exact same.symm ▸ sound
      · exact sound.update update
  cases label with
  | advance elapsed => exact sound.advance allowed
  | enter process token => exact sound.enter process allowed
  | sendAdmission token => exact coroutine token _ fun _ => sendAdmission_update
  | sendRenewal token => exact coroutine token _ fun _ => sendRenewal_update
  | execute number =>
    simp only [Network.step]
    cases sent : net.requests[number]? with
    | none => exact sound
    | some request => exact sound.execute sent
  | receive reply => exact coroutine reply.request.token _ fun _ => receive_update
  | fail token => exact coroutine token _ fun _ => fail_update
  | leave token =>
    apply coroutine token
    intro scope found
    split
    · exact .inl rfl
    · exact .inr (leave_update found rfl fun _ => .inl)

/-- The scopes whose lease is valid are entries of the sorted set. -/
theorem Sound.holders_le (sound : Sound config net) :
    net.holders config ≤ net.slots.keys.length := by
  apply Dict.keys_le_of_subset
  intro token scope present
  obtain ⟨found, valid⟩ := (Dict.get?_retain_eq_some _ _ _ _).mp present
  obtain ⟨_, ⟨instant, stored, safe⟩, unreleased⟩ := of_decide_eq_true valid
  obtain ⟨reply, member, yes, rfl, rfl⟩ := sound.confirmed token scope found instant stored
  obtain ⟨score, entry, _⟩ := sound.entry reply member yes unreleased scope found safe
  exact ⟨score, entry⟩

/-- At every moment at most `limit` distributed scopes have a valid lease. -/
theorem holders_le_limit (config : Config) (clock : ℚ) (labels : List Label)
    (allowed : Run.Along (step config) Allowed (start clock) labels) :
    (Run.run (step config) (start clock) labels).holders config ≤ config.limit := by
  have sound : Sound config (Run.run (step config) (start clock) labels) :=
    allowed.invariant (fun _ label sound allowed => sound.step label allowed)
      (sound_start config clock)
  exact sound.holders_le.trans sound.within

/-- Two processes and a limit of one: the second is refused while the first
lease is valid, and admitted once the entry has aged. -/
theorem holders_le_limit_takeover :
    let config : Config := ⟨1, 130, 120, fun process => 7 * process⟩
    let labels : List Label :=
      [.enter 0 "a", .sendAdmission "a", .execute 0, .receive ⟨0, ⟨.admitSlot, "a", 1000⟩, 1⟩,
       .enter 1 "b", .sendAdmission "b", .execute 1, .receive ⟨1, ⟨.admitSlot, "b", 1007⟩, 0⟩,
       .advance 120, .sendAdmission "b", .execute 2, .receive ⟨2, ⟨.admitSlot, "b", 1127⟩, 1⟩]
    (Run.run (step config) (start 1000) labels).holders config ≤ 1 := by
  intro config labels
  exact holders_le_limit config 1000 labels (by decide +kernel)

end Network

end BobbyBotique.Admission
