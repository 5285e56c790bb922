import BobbyBotique.Games.Budget

/-!
# Runs of the game AI budget

In every run the windows keep their limits, the leases are the permits that were taken,
and the foreground counter is exact.  A background admission that waits for its script has
passed its gate before: what happens meanwhile decides whether its grant is in time.
-/

namespace BobbyBotique.Games.Budget

namespace Manager

variable {manager : Manager} {scope : BudgetScope} {provider : Provider} {model : String}

/-! ## Leases and permits -/

/-- What holds of a process in every run. -/
structure Kept (manager : Manager) : Prop where
  permits : ∀ scope provider, (manager.semaphores scope provider).permits +
    manager.unreleased scope provider = concurrencyLimit scope provider
  active : manager.foregroundActive = manager.activeForeground
  windows : ∀ model, (manager.windows model).Kept (modelLimit .foreground model)
    (modelLimit .background model) manager.wall

theorem kept_fresh (wall monotonic : ℚ) : (fresh wall monotonic).Kept :=
  ⟨fun _ _ => rfl, rfl, fun _ => LocalWindow.kept_absent _ _ _⟩

theorem Kept.withCooldowns (kept : manager.Kept)
    (cooldowns : Dict (Provider × String) CooldownState) :
    Kept { manager with cooldowns := cooldowns } :=
  ⟨kept.permits, kept.active, kept.windows⟩

/-- A semaphore with the same permits. -/
theorem Kept.waits (kept : manager.Kept) {semaphore : AsyncSemaphore}
    (same : semaphore.permits = (manager.semaphores scope provider).permits) :
    (manager.withSemaphore scope provider semaphore).Kept := by
  refine ⟨fun kind family => ?_, kept.active, kept.windows⟩
  have before := kept.permits kind family
  unfold withSemaphore
  dsimp only
  split
  · next here =>
      obtain ⟨rfl, rfl⟩ := here
      rw [same]
      exact before
  · exact before

theorem unreleased_grant (kind : BudgetScope) (family : Provider) :
    (manager.grant scope provider).unreleased kind family =
      manager.unreleased kind family + if kind = scope ∧ family = provider then 1 else 0 := by
  unfold unreleased grant
  rw [List.countP_append, List.countP_singleton]
  simp only [decide_eq_true_eq, and_true, @eq_comm _ scope, @eq_comm _ provider]

theorem activeForeground_grant :
    (manager.grant scope provider).activeForeground =
      manager.activeForeground + if scope = .foreground then 1 else 0 := by
  unfold activeForeground grant
  rw [List.countP_append, List.countP_singleton]
  simp only [decide_eq_true_eq, and_true]

/-- A semaphore that gave a permit, for a lease. -/
theorem Kept.granted (kept : manager.Kept) {semaphore : AsyncSemaphore}
    (taken : semaphore.permits + 1 = (manager.semaphores scope provider).permits) :
    ((manager.withSemaphore scope provider semaphore).grant scope provider).Kept := by
  refine ⟨fun kind family => ?_, ?_, kept.windows⟩
  · have before := kept.permits kind family
    rw [unreleased_grant]
    change (if kind = scope ∧ family = provider then semaphore
      else manager.semaphores kind family).permits + (manager.unreleased kind family + _) = _
    split
    · next here =>
        obtain ⟨rfl, rfl⟩ := here
        omega
    · exact before
  · rw [activeForeground_grant]
    exact congrArg (· + if scope = .foreground then 1 else 0) kept.active

theorem Kept.enter (kept : manager.Kept) : (manager.enter scope provider).Kept := by
  unfold Manager.enter
  split
  · exact kept
  · have permits := @AsyncSemaphore.acquire_permits (manager.semaphores scope provider)
    dsimp only
    split
    · next through =>
        rw [if_pos through] at permits
        exact kept.granted permits
    · next waits =>
        rw [if_neg waits] at permits
        exact kept.waits permits

theorem Kept.resume (kept : manager.Kept) (place : Nat) : (manager.resume provider place).Kept := by
  have permits :=
    @AsyncSemaphore.resume_permits (manager.semaphores .foreground provider) place
  unfold Manager.resume
  dsimp only
  split
  · next acquired =>
      rw [if_pos acquired] at permits
      exact kept.granted permits
  · next waits =>
      rw [if_neg waits] at permits
      exact kept.waits permits

theorem Kept.cancel (kept : manager.Kept) (place : Nat) : (manager.cancel provider place).Kept :=
  kept.waits (AsyncSemaphore.cancel_permits place)

/-- The leases of a kind, one of them released. -/
theorem countP_released {leases : List Lease} {place : Nat} {lease : Lease}
    (found : leases[place]? = some lease)
    (counts : Lease → Bool) (closed : counts { lease with released := true } = false) :
    (leases.set place { lease with released := true }).countP counts +
      (if counts lease then 1 else 0) = leases.countP counts := by
  induction leases generalizing place with
  | nil => cases found
  | cons first rest ih =>
    cases place with
    | zero =>
      cases found
      rw [List.set_cons_zero, List.countP_cons, List.countP_cons, closed]
      simp only [Bool.false_eq_true, if_false, Nat.add_zero]
    | succ place =>
      have later := ih found
      rw [List.set_cons_succ, List.countP_cons, List.countP_cons, ← later]
      omega

theorem Kept.release (kept : manager.Kept) (place : Nat) : (manager.release place).Kept := by
  unfold Manager.release
  split
  · exact kept
  · next lease found =>
      split
      · exact kept
      · next unreleased =>
          have open' : lease.released = false := Bool.eq_false_iff.mpr unreleased
          have active := countP_released found
            (fun each => decide (each.scope = .foreground ∧ each.released = false)) (by simp)
          simp only [open', and_true, decide_eq_true_eq] at active
          refine ⟨fun kind family => ?_, ?_, kept.windows⟩
          · have before := kept.permits kind family
            have counted := countP_released found (fun each => decide
              (each.scope = kind ∧ each.provider = family ∧ each.released = false)) (by simp)
            simp only [open', and_true, decide_eq_true_eq] at counted
            rw [Manager.unreleased, ← counted] at before
            unfold withSemaphore Manager.unreleased
            dsimp only
            by_cases here : kind = lease.scope ∧ family = lease.provider
            · obtain ⟨rfl, rfl⟩ := here
              rw [if_pos ⟨rfl, rfl⟩] at before ⊢
              rw [AsyncSemaphore.release_permits]
              omega
            · rw [if_neg fun same => here ⟨same.1.symm, same.2.symm⟩] at before
              rw [if_neg here]
              exact before
          · have before := kept.active
            rw [activeForeground, ← active] at before
            unfold activeForeground
            dsimp only
            by_cases fore : lease.scope = .foreground
            · rw [if_pos fore] at before
              rw [if_pos ⟨fore, by omega⟩]
              omega
            · rw [if_neg fore] at before
              rw [if_neg fun both => fore both.1]
              exact before

/-! ## Cooldowns -/

theorem cooled_iff : manager.cooled = true ↔ ∃ key state,
    manager.cooldowns.get? key = some state ∧ state.provider = .aiStudio ∧
      manager.monotonic < state.cooldownUntil := by
  rw [cooled, List.any_eq_true]
  constructor
  · rintro ⟨state, member, holds⟩
    obtain ⟨key, found⟩ := (Dict.mem_values_iff _ state).mp member
    exact ⟨key, state, found, by simpa using holds⟩
  · rintro ⟨key, state, found, holds⟩
    exact ⟨state, (Dict.mem_values_iff _ state).mpr ⟨key, found⟩, by simpa using holds⟩

/-- Fewer cooldowns at a later instant. -/
theorem cooled_of_less {after : Manager} (later : manager.monotonic ≤ after.monotonic)
    (less : ∀ key state, after.cooldowns.get? key = some state →
      manager.cooldowns.get? key = some state) (free : manager.cooled = false) :
    after.cooled = false := by
  rw [Bool.eq_false_iff] at free ⊢
  refine fun still => free ?_
  obtain ⟨key, state, found, studio, before⟩ := cooled_iff.mp still
  exact cooled_iff.mpr ⟨key, state, less key state found, studio, later.trans_lt before⟩

theorem pruneExpired_get? {key : Provider × String} {state : CooldownState}
    (found : manager.pruneExpired.cooldowns.get? key = some state) :
    manager.cooldowns.get? key = some state :=
  ((Dict.get?_retain_eq_some _ _ key state).mp found).1

theorem pruneExpired_cooled : manager.pruneExpired.cooled = manager.cooled := by
  cases cooled : manager.cooled with
  | false =>
    exact @cooled_of_less manager manager.pruneExpired le_rfl (fun _ _ => pruneExpired_get?)
      cooled
  | true =>
    obtain ⟨key, state, found, studio, before⟩ := cooled_iff.mp cooled
    refine cooled_iff.mpr ⟨key, state, ?_, studio, before⟩
    exact (Dict.get?_retain_eq_some _ _ key state).mpr ⟨found, decide_eq_true before⟩

/-- The gates only drop cooldowns that have expired, and a background admission passes
them with none in force and no foreground lease. -/
theorem gate_spec : ∃ cooldowns,
    (manager.gate scope provider model).1 = { manager with cooldowns := cooldowns } ∧
      (manager.gate scope provider model).1.cooled = manager.cooled ∧
        ((manager.gate scope provider model).2 = true → scope = .background →
          manager.foregroundActive = 0 ∧ manager.cooled = false) := by
  have checked (paused : Manager) (cooldowns : Dict (Provider × String) CooldownState)
      (same : paused = { manager with cooldowns := cooldowns })
      (cooled : paused.cooled = manager.cooled) : ∃ cooldowns,
      (if provider = .aiStudio then
          ((paused.modelCooled provider model).1, !(paused.modelCooled provider model).2)
        else (paused, true)).1 = { manager with cooldowns := cooldowns } ∧
      (if provider = .aiStudio then
          ((paused.modelCooled provider model).1, !(paused.modelCooled provider model).2)
        else (paused, true)).1.cooled = manager.cooled := by
    subst same
    split
    · exact ⟨_, rfl, pruneExpired_cooled.trans cooled⟩
    · exact ⟨_, rfl, cooled⟩
  unfold gate
  cases scope with
  | foreground =>
    obtain ⟨cooldowns, same, cooled⟩ := checked manager manager.cooldowns rfl rfl
    exact ⟨cooldowns, same, cooled, nofun⟩
  | background =>
    rw [if_pos rfl]
    unfold shouldPause
    by_cases active : 0 < manager.foregroundActive
    · rw [if_pos active]
      exact ⟨_, rfl, rfl, nofun⟩
    · rw [if_neg active]
      dsimp only
      cases cooled : manager.pruneExpired.cooled with
      | true =>
        rw [if_pos rfl]
        exact ⟨_, rfl, pruneExpired_cooled, nofun⟩
      | false =>
        rw [if_neg Bool.false_ne_true]
        obtain ⟨cooldowns, same, kept⟩ :=
          checked manager.pruneExpired _ rfl pruneExpired_cooled
        exact ⟨cooldowns, same, kept, fun _ _ =>
          ⟨by omega, pruneExpired_cooled.symm.trans cooled⟩⟩

/-! ## Quiet processes -/

/-- No foreground lease is unreleased and no cooldown in force. -/
def Quiet (manager : Manager) : Prop :=
  manager.activeForeground = 0 ∧ manager.cooled = false

/-- Every background lease was granted to a quiet process. -/
def Unpaused (manager : Manager) : Prop :=
  ∀ grant ∈ manager.grants, grant.scope = .background → grant.active = 0 ∧ grant.cooled = false

theorem unpaused_grant (unpaused : manager.Unpaused)
    (quiet : scope = .background → manager.Quiet) : (manager.grant scope provider).Unpaused := by
  intro grant member background
  rcases List.mem_append.mp member with old | new
  · exact unpaused grant old background
  · rw [List.mem_singleton.mp new] at background ⊢
    exact quiet background

theorem unpaused_enter (unpaused : manager.Unpaused)
    (quiet : scope = .background → manager.Quiet) : (manager.enter scope provider).Unpaused := by
  unfold enter
  split
  · exact unpaused
  · dsimp only
    split
    · exact @unpaused_grant (manager.withSemaphore scope provider _) scope provider unpaused quiet
    · exact unpaused

theorem unpaused_resume (unpaused : manager.Unpaused) (place : Nat) :
    (manager.resume provider place).Unpaused := by
  unfold resume
  dsimp only
  split
  · exact @unpaused_grant (manager.withSemaphore .foreground provider _) .foreground provider
      unpaused nofun
  · exact unpaused

theorem unpaused_release (unpaused : manager.Unpaused) (place : Nat) :
    (manager.release place).Unpaused := by
  unfold release
  split
  · exact unpaused
  · split <;> exact unpaused

theorem quiet_enter (quiet : manager.Quiet)
    (locked : scope = .foreground → (manager.semaphores scope provider).locked = true) :
    (manager.enter scope provider).Quiet := by
  unfold enter
  split
  · exact quiet
  · dsimp only
    split
    · next through =>
        cases scope with
        | background =>
          refine ⟨?_, quiet.2⟩
          rw [activeForeground_grant]
          exact quiet.1
        | foreground =>
          rw [AsyncSemaphore.acquire, if_pos (locked rfl)] at through
          cases through
    · exact quiet

theorem quiet_resume (quiet : manager.Quiet) {place : Nat}
    (waits : ((manager.semaphores .foreground provider).resume place).2 ≠ .acquired) :
    (manager.resume provider place).Quiet := by
  unfold resume
  dsimp only
  rw [if_neg waits]
  exact quiet

theorem quiet_release (quiet : manager.Quiet) (place : Nat) : (manager.release place).Quiet := by
  unfold release
  split
  · exact quiet
  · next lease found =>
      split
      · exact quiet
      · refine ⟨?_, quiet.2⟩
        have counted := countP_released found
          (fun each => decide (each.scope = .foreground ∧ each.released = false)) (by simp)
        have none := quiet.1
        unfold activeForeground at none ⊢
        dsimp only
        omega

theorem quiet_recordResult (quiet : manager.Quiet) {outcome : Outcome} {retryAfter : Option Int}
    {reason : List Char} (sets : ¬(provider = .aiStudio ∧ outcome = .rateLimit)) :
    (manager.recordResult provider model outcome retryAfter reason).Quiet := by
  unfold recordResult
  split
  · exact quiet
  · next studio =>
      cases outcome with
      | other => exact quiet
      | rateLimit => exact absurd ⟨not_not.mp studio, rfl⟩ sets
      | success =>
        refine ⟨quiet.1, pruneExpired_cooled.trans ?_⟩
        refine @cooled_of_less manager _ le_rfl (fun key state found => ?_) quiet.2
        exact (Dict.get?_del_eq_some.mp found).2

theorem recordResult_frame {outcome : Outcome} {retryAfter : Option Int} {reason : List Char} :
    ∃ cooldowns, manager.recordResult provider model outcome retryAfter reason =
      { manager with cooldowns := cooldowns } := by
  unfold recordResult
  split
  · exact ⟨_, rfl⟩
  · cases outcome with
    | success | other => exact ⟨_, rfl⟩
    | rateLimit =>
      dsimp only
      split <;> split <;> exact ⟨_, rfl⟩

end Manager

namespace State

variable {redis : Bool} {state : State}

/-! ## Runs -/

/-- What holds in every run. -/
structure Kept (state : State) : Prop where
  windows : ∀ model, (state.windows model).Kept (modelLimit .foreground model)
    (modelLimit .background model) state.clock
  managers : ∀ process, (state.managers process).Kept
  limits : ∀ call ∈ state.calls, call.limit = modelLimit call.scope call.model
  answered : ∀ call ∈ state.calls, true ∈ call.replies →
    ∃ use ∈ (state.windows call.model).spent, use.token = call.token

theorem kept_initial (clock : ℚ) (clocks : Nat → ℚ × ℚ) : (initial clock clocks).Kept :=
  ⟨fun _ => ModelWindow.kept_absent _ _ _, fun _ => Manager.kept_fresh _ _, nofun, nofun⟩

theorem withManager_of (good : Nat → Manager → Prop) {process : Nat} {manager : Manager}
    (all : ∀ each, good each (state.managers each)) (changed : good process manager)
    (each : Nat) : good each ((state.withManager process manager).managers each) := by
  unfold withManager
  dsimp only
  rw [Function.update_apply]
  split
  · next same =>
      subst same
      exact changed
  · exact all each

theorem Kept.withManager (kept : state.Kept) {process : Nat} {manager : Manager}
    (changed : manager.Kept) : (state.withManager process manager).Kept :=
  ⟨kept.windows, withManager_of (fun _ => Manager.Kept) kept.managers changed, kept.limits,
    kept.answered⟩

theorem consumeLocal_kept {manager : Manager} {scope : BudgetScope} {model : String}
    (kept : manager.Kept) :
    (manager.consumeLocal scope model (modelLimit scope model)).1.Kept := by
  refine ⟨kept.permits, kept.active, fun each => ?_⟩
  unfold Manager.consumeLocal
  dsimp only
  rw [Function.update_apply]
  split
  · next same =>
      subst same
      exact (kept.windows each).tryConsume (modelLimit_le scope each) fun background => by
        rw [background]
  · exact kept.windows each

theorem rpmLimit_some {scope : BudgetScope} {provider : Provider} {model : String} {limit : Nat}
    (found : rpmLimit scope provider model = some limit) :
    provider = .aiStudio ∧ limit = modelLimit scope model := by
  cases provider with
  | aiStudio => exact ⟨rfl, by rw [modelLimit, found, Option.getD_some]⟩
  | vertexExpress | opencodeGo | openrouter => cases scope <;> cases found

/-- Where `acquire` pauses or ends. -/
theorem acquire_cases {process : Nat} {scope : BudgetScope} {provider : Provider} {model : String}
    {token : Providers.Token} {manager : Manager}
    (gated : ((state.managers process).gate scope provider model).1 = manager) :
    (state.acquire redis process scope provider model token = state.withManager process manager) ∨
      (((state.managers process).gate scope provider model).2 = true ∧
        rpmLimit scope provider model = none ∧
        state.acquire redis process scope provider model token =
          state.withManager process (manager.enter scope provider)) ∨
      (redis = true ∧ (state.acquire redis process scope provider model token = state ∨
          ((state.managers process).gate scope provider model).2 = true ∧
          token ∉ state.calls.map Call.token ∧
          state.acquire redis process scope provider model token =
            { state.withManager process manager with
              calls := state.calls ++
                [⟨process, scope, model, token, modelLimit scope model, true, []⟩] })) ∨
      (redis = false ∧ ((state.managers process).gate scope provider model).2 = true ∧
        state.acquire redis process scope provider model token = state.withManager process
            (if (manager.consumeLocal scope model (modelLimit scope model)).2 then
              (manager.consumeLocal scope model (modelLimit scope model)).1.enter scope provider
            else (manager.consumeLocal scope model (modelLimit scope model)).1)) := by
  unfold acquire
  dsimp only
  rw [gated]
  split
  · next passed =>
      split
      · next none => exact .inr (.inl ⟨passed, none, rfl⟩)
      · exact .inl rfl
      · next limit _ found =>
          obtain ⟨_, rfl⟩ := rpmLimit_some found
          split
          · next on =>
              refine .inr (.inr (.inl ⟨on, ?_⟩))
              split
              · exact .inl rfl
              · next fresh => exact .inr ⟨passed, fresh, rfl⟩
          · next off => exact .inr (.inr (.inr ⟨Bool.eq_false_iff.mpr off, passed, rfl⟩))
  · exact .inl rfl

theorem Kept.acquire (kept : state.Kept) (process : Nat) (scope : BudgetScope)
    (provider : Provider) (model : String) (token : Providers.Token) :
    (state.acquire redis process scope provider model token).Kept := by
  obtain ⟨cooldowns, same, _⟩ := @Manager.gate_spec (state.managers process) scope provider model
  have gated := (kept.managers process).withCooldowns cooldowns
  rcases @acquire_cases redis state process scope provider model token _ same with
    ends | ⟨_, _, enters⟩ | ⟨_, ends | ⟨_, _, waits⟩⟩ | ⟨_, _, spends⟩
  · rw [ends]
    exact kept.withManager gated
  · rw [enters]
    exact kept.withManager gated.enter
  · rw [ends]
    exact kept
  · rw [waits]
    refine ⟨kept.windows, (kept.withManager gated).managers, ?_, ?_⟩
    · intro call member
      rcases List.mem_append.mp member with old | new
      · exact kept.limits call old
      · rw [List.mem_singleton.mp new]
    · intro call member admitted
      rcases List.mem_append.mp member with old | new
      · exact kept.answered call old admitted
      · rw [List.mem_singleton.mp new] at admitted
        cases admitted
  · rw [spends]
    refine kept.withManager ?_
    split
    · exact (consumeLocal_kept gated).enter
    · exact consumeLocal_kept gated

/-- What a run of the script changes. -/
theorem execute_cases (place : Nat) :
    state.execute place = state ∨ ∃ call, state.calls[place]? = some call ∧ state.execute place =
        { state with
          windows := Function.update state.windows call.model
            ((state.windows call.model).consume state.clock call.scope call.limit call.token).1
          calls := state.calls.set place
            { call with
              replies := call.replies ++ [((state.windows call.model).consume state.clock
                call.scope call.limit call.token).2] } } := by
  unfold execute
  cases found : state.calls[place]? with
  | none => exact .inl rfl
  | some call => exact .inr ⟨call, rfl, rfl⟩

theorem spent_grows {window : ModelWindow} {now : ℚ} {scope : BudgetScope} {limit : Nat}
    {token : Providers.Token} : window.spent ⊆ (window.consume now scope limit token).1.spent := by
  rcases @ModelWindow.consume_cases window now scope limit token with
    ⟨_, same⟩ | same | ⟨_, _, same⟩
  · rw [same]
    exact List.Subset.refl _
  · rw [same]
    exact List.Subset.refl _
  · rw [same]
    exact List.subset_cons_self _ _

theorem Kept.execute (kept : state.Kept) (place : Nat) : (state.execute place).Kept := by
  rcases @execute_cases state place with same | ⟨call, found, same⟩
  · rw [same]
    exact kept
  · rw [same]
    have listed := List.mem_of_getElem? found
    have limit := kept.limits call listed
    have window := kept.windows call.model
    have spent (each : String) : (state.windows each).spent ⊆
        (Function.update state.windows call.model ((state.windows call.model).consume state.clock
          call.scope call.limit call.token).1 each).spent := by
      rw [Function.update_apply]
      split
      · next here =>
          subst here
          exact spent_grows
      · exact List.Subset.refl _
    refine ⟨fun each => ?_, kept.managers, fun each member => ?_, fun each member admitted => ?_⟩
    · dsimp only
      rw [Function.update_apply]
      split
      · next here =>
          subst here
          refine window.consume (limit ▸ modelLimit_le call.scope call.model) fun background => ?_
          rw [limit, background]
      · exact kept.windows each
    · rcases List.mem_or_eq_of_mem_set member with old | rfl
      · exact kept.limits each old
      · exact limit
    · rcases List.mem_or_eq_of_mem_set member with old | rfl
      · obtain ⟨use, used, token⟩ := kept.answered each old admitted
        exact ⟨use, spent each.model used, token⟩
      · rcases List.mem_append.mp admitted with before | now
        · obtain ⟨use, used, token⟩ := kept.answered call listed before
          exact ⟨use, spent call.model used, token⟩
        · dsimp only
          rw [Function.update_self]
          exact window.answered (List.mem_singleton.mp now).symm

/-- What an answer changes. -/
theorem answer_cases (place : Nat) (reply : Option Bool) :
    state.answer place reply = state ∨ ∃ call, state.calls[place]? = some call ∧
      call.waiting = true ∧ ∃ manager : Manager, state.answer place reply =
          { state.withManager call.process manager with
            calls := state.calls.set place { call with waiting := false } } ∧
        (manager = state.managers call.process ∨ reply = some true ∧
          manager = (state.managers call.process).enter call.scope .aiStudio) := by
  unfold answer
  cases found : state.calls[place]? with
  | none => exact .inl rfl
  | some call =>
    dsimp only
    split
    · next waits =>
        refine .inr ⟨call, rfl, waits.1, ?_⟩
        split
        · next admitted => exact ⟨_, rfl, .inr ⟨admitted, rfl⟩⟩
        · refine ⟨state.managers call.process, ?_, .inl rfl⟩
          rw [withManager, Function.update_eq_self]
    · exact .inl rfl

theorem Kept.answer (kept : state.Kept) (place : Nat) (reply : Option Bool) :
    (state.answer place reply).Kept := by
  rcases @answer_cases state place reply with same | ⟨call, found, _, manager, same, entered⟩
  · rw [same]
    exact kept
  · rw [same]
    have listed := List.mem_of_getElem? found
    have changed : manager.Kept := by
      rcases entered with rfl | ⟨_, rfl⟩
      · exact kept.managers call.process
      · exact (kept.managers call.process).enter
    refine ⟨kept.windows, (kept.withManager changed).managers, fun each member => ?_,
      fun each member admitted => ?_⟩
    · rcases List.mem_or_eq_of_mem_set member with old | rfl
      · exact kept.limits each old
      · exact kept.limits call listed
    · rcases List.mem_or_eq_of_mem_set member with old | rfl
      · exact kept.answered each old admitted
      · exact kept.answered call listed admitted

theorem Kept.step (kept : state.Kept) (label : Label) : (step redis state label).Kept := by
  cases label with
  | redisClock elapsed =>
    have later : state.clock ≤ state.clock + elapsed :=
      le_add_of_nonneg_right (NNRat.cast_nonneg elapsed)
    exact ⟨fun model => (kept.windows model).later later, kept.managers, kept.limits, kept.answered⟩
  | processClocks process wall monotonic =>
    have manager := kept.managers process
    have later : (state.managers process).wall ≤ (state.managers process).wall + wall :=
      le_add_of_nonneg_right (NNRat.cast_nonneg wall)
    exact kept.withManager ⟨manager.permits, manager.active,
      fun model => (manager.windows model).later later⟩
  | acquire process scope provider model token => exact kept.acquire ..
  | execute place => exact kept.execute place
  | answer place reply => exact kept.answer place reply
  | resume process provider place =>
    exact kept.withManager ((kept.managers process).resume place)
  | cancel process provider place =>
    exact kept.withManager ((kept.managers process).cancel place)
  | release process place => exact kept.withManager ((kept.managers process).release place)
  | recordResult process provider model outcome retryAfter reason =>
    refine kept.withManager ?_
    obtain ⟨cooldowns, same⟩ := @Manager.recordResult_frame (state.managers process) provider
      model outcome retryAfter reason
    rw [same]
    exact (kept.managers process).withCooldowns cooldowns

end State

end BobbyBotique.Games.Budget
