import BobbyBotique.Games.BudgetRuns

/-!
# Grants in time

A background admission looks at the foreground leases and the cooldowns before its script
runs, and not again.  Its grant is in time in the runs where neither comes while it waits,
and an admission spends one slot in those where its script is sent again within the minute.
-/

namespace BobbyBotique.Games.Budget

namespace State

variable {redis : Bool} {state : State}

/-- A background admission of the process waits for its script. -/
def waitsInBackground (state : State) (process : Nat) : Bool :=
  state.calls.any fun call =>
    decide (call.process = process) && decide (call.scope = .background) && call.waiting

/-- The step grants a foreground lease of the process, or sets a cooldown. -/
def Disturbs (redis : Bool) (state : State) (process : Nat) : Label → Prop
  | .acquire here scope provider model _ =>
    here = process ∧ scope = .foreground ∧ (redis = false ∨ rpmLimit scope provider model = none) ∧
        ((state.managers here).semaphores .foreground provider).locked = false
  | .answer place reply =>
    ∃ call ∈ state.calls[place]?, call.process = process ∧ call.scope = .foreground ∧
      reply = some true ∧ ((state.managers process).semaphores .foreground .aiStudio).locked = false
  | .resume here provider place =>
    here = process ∧
      (((state.managers here).semaphores .foreground provider).resume place).2 = .acquired
  | .recordResult here provider _ outcome _ _ =>
    here = process ∧ provider = .aiStudio ∧ outcome = .rateLimit
  | _ => False

/-- The condition: a process with a background admission that waits is not disturbed, and no
script runs again a minute or more after it spent a slot. -/
def Meets (redis : Bool) (state : State) (label : Label) : Prop :=
  (∀ call ∈ state.calls, state.waitsInBackground call.process = true →
      ¬Disturbs redis state call.process label) ∧
    match label with
    | .execute place =>
      ∀ call ∈ state.calls[place]?, ∀ use ∈ (state.windows call.model).spent,
        use.token = call.token → state.clock < use.instant + 60
    | _ => True

instance (redis : Bool) (state : State) (process : Nat) (label : Label) :
    Decidable (Disturbs redis state process label) :=
  match label with
  | .acquire .. | .recordResult .. => inferInstanceAs (Decidable (_ ∧ _ ∧ _))
  | .answer place _ => inferInstanceAs (Decidable (∃ call ∈ state.calls[place]?, _ ∧ _ ∧ _ ∧ _))
  | .resume .. => inferInstanceAs (Decidable (_ ∧ _))
  | .redisClock _ | .processClocks .. | .execute _ | .cancel .. | .release .. =>
    inferInstanceAs (Decidable False)

instance (redis : Bool) (state : State) (label : Label) : Decidable (Meets redis state label) :=
  have : Decidable (match label with
      | .execute place =>
        ∀ call ∈ state.calls[place]?, ∀ use ∈ (state.windows call.model).spent,
          use.token = call.token → state.clock < use.instant + 60
      | _ => True) :=
    match label with
    | .execute place => inferInstanceAs (Decidable (∀ call ∈ state.calls[place]?,
        ∀ use ∈ (state.windows call.model).spent, use.token = call.token →
          state.clock < use.instant + 60))
    | .redisClock _ | .processClocks .. | .acquire .. | .answer .. | .resume .. | .cancel ..
    | .release .. | .recordResult .. => inferInstanceAs (Decidable True)
  inferInstanceAs (Decidable (_ ∧ _))

/-- Background leases are granted in time, and no token spends two slots. -/
structure Sound (state : State) : Prop where
  unpaused : ∀ process, (state.managers process).Unpaused
  single : ∀ model, ((state.windows model).spent.map Use.token).Nodup

/-- What a background admission saw at its gates still holds while it waits. -/
structure Steady (state : State) : Prop extends Sound state where
  quiet : ∀ call ∈ state.calls, call.waiting = true → call.scope = .background →
    (state.managers call.process).Quiet

theorem waitsInBackground_of {call : Call} (member : call ∈ state.calls)
    (waiting : call.waiting = true) (background : call.scope = .background) :
    state.waitsInBackground call.process = true := by
  refine List.any_eq_true.mpr ⟨call, member, ?_⟩
  rw [decide_eq_true rfl, decide_eq_true background, waiting]
  rfl

theorem steady_initial (clock : ℚ) (clocks : Nat → ℚ × ℚ) : (initial clock clocks).Steady :=
  { unpaused := fun _ => nofun, single := fun _ => List.nodup_nil, quiet := nofun }

/-- One process changes, and stays quiet if a background admission of it waits. -/
theorem Steady.withManager (steady : state.Steady) {process : Nat} {manager : Manager}
    (unpaused : manager.Unpaused)
    (quiet : ∀ call ∈ state.calls, call.waiting = true → call.scope = .background →
      call.process = process → (state.managers process).Quiet → manager.Quiet) :
    (state.withManager process manager).Steady where
  unpaused := withManager_of (fun _ => Manager.Unpaused) steady.unpaused unpaused
  single := steady.single
  quiet call member waiting background := by
    have before := steady.quiet call member waiting background
    unfold State.withManager
    dsimp only
    rw [Function.update_apply]
    split
    · next here =>
        rw [here] at before
        exact quiet call member waiting background here before
    · exact before

theorem Steady.acquire (steady : state.Steady) (kept : state.Kept) {process : Nat}
    {scope : BudgetScope} {provider : Provider} {model : String} {token : Providers.Token}
    (meets : Meets redis state (.acquire process scope provider model token)) :
    (state.acquire redis process scope provider model token).Steady := by
  obtain ⟨cooldowns, same, cooled, passes⟩ :=
    @Manager.gate_spec (state.managers process) scope provider model
  have cooledBefore : ({ state.managers process with cooldowns := cooldowns } : Manager).cooled =
      (state.managers process).cooled := same ▸ cooled
  have unpaused : ({ state.managers process with cooldowns := cooldowns } : Manager).Unpaused :=
    steady.unpaused process
  have quietGate (quiet : (state.managers process).Quiet) :
      ({ state.managers process with cooldowns := cooldowns } : Manager).Quiet :=
    ⟨quiet.1, cooledBefore.trans quiet.2⟩
  have passed (admitted : ((state.managers process).gate scope provider model).2 = true)
      (background : scope = .background) :
      ({ state.managers process with cooldowns := cooldowns } : Manager).Quiet := by
    obtain ⟨active, free⟩ := passes admitted background
    exact quietGate ⟨(kept.managers process).active.symm.trans active, free⟩
  -- a foreground lease only when no background admission waits
  have locked (direct : redis = false ∨ rpmLimit scope provider model = none) {call : Call}
      (member : call ∈ state.calls) (waiting : call.waiting = true)
      (background : call.scope = .background) (here : call.process = process)
      (foreground : scope = .foreground) :
      ((state.managers process).semaphores scope provider).locked = true := by
    refine Bool.of_not_eq_false fun free => ?_
    refine meets.1 call member (waitsInBackground_of member waiting background) ?_
    exact ⟨here.symm, foreground, direct, by rw [foreground] at free; exact free⟩
  rcases @acquire_cases redis state process scope provider model token _ same with
    ends | ⟨admitted, unlimited, enters⟩ | ⟨_, ends | ⟨admitted, _, waits⟩⟩ |
      ⟨off, admitted, spends⟩
  · rw [ends]
    exact steady.withManager unpaused fun _ _ _ _ _ => quietGate
  · rw [enters]
    refine steady.withManager (Manager.unpaused_enter unpaused (passed admitted)) ?_
    intro call member waiting background here quiet
    exact Manager.quiet_enter (quietGate quiet)
      (locked (.inr unlimited) member waiting background here)
  · rw [ends]
    exact steady
  · rw [waits]
    have changed : (state.withManager process
        { state.managers process with cooldowns := cooldowns }).Steady :=
      steady.withManager unpaused fun _ _ _ _ _ => quietGate
    refine { unpaused := changed.unpaused, single := changed.single, quiet := ?_ }
    intro call member waiting background
    rcases List.mem_append.mp member with old | new
    · exact changed.quiet call old waiting background
    · rw [List.mem_singleton.mp new] at background ⊢
      unfold State.withManager
      dsimp only
      rw [Function.update_self]
      exact passed admitted background
  · rw [spends]
    refine steady.withManager ?_ ?_
    · split
      · exact Manager.unpaused_enter unpaused fun background =>
          passed admitted background
      · exact unpaused
    · intro call member waiting background here quiet
      split
      · exact Manager.quiet_enter (quietGate quiet)
          (locked (.inl off) member waiting background here)
      · exact quietGate quiet

theorem Steady.execute (steady : state.Steady) (kept : state.Kept) {place : Nat}
    (meets : Meets redis state (.execute place)) : (state.execute place).Steady := by
  rcases @execute_cases state place with same | ⟨call, found, same⟩
  · rw [same]
    exact steady
  · have young := meets.2
    dsimp only at young
    rw [same]
    refine { unpaused := steady.unpaused, single := fun model => ?_, quiet := ?_ }
    · dsimp only
      rw [Function.update_apply]
      split
      · next here =>
          subst here
          exact (kept.windows call.model).retransmitted (steady.single call.model)
            (young call found)
      · exact steady.single model
    · intro each member waiting background
      rcases List.mem_or_eq_of_mem_set member with old | rfl
      · exact steady.quiet each old waiting background
      · exact steady.quiet call (List.mem_of_getElem? found) waiting background

theorem Steady.answer (steady : state.Steady) {place : Nat} {reply : Option Bool}
    (meets : Meets redis state (.answer place reply)) : (state.answer place reply).Steady := by
  rcases @answer_cases state place reply with same | ⟨call, found, waited, manager, same, entered⟩
  · rw [same]
    exact steady
  · rw [same]
    have listed := List.mem_of_getElem? found
    have changed : (state.withManager call.process manager).Steady := by
      rcases entered with rfl | ⟨admitted, rfl⟩
      · exact steady.withManager (steady.unpaused call.process) fun _ _ _ _ _ quiet => quiet
      · refine steady.withManager (Manager.unpaused_enter (steady.unpaused call.process)
          fun background => steady.quiet call listed waited background) ?_
        intro other member waiting background here quiet
        refine Manager.quiet_enter quiet fun foreground => Bool.of_not_eq_false fun free => ?_
        refine meets.1 other member (waitsInBackground_of member waiting background) ?_
        refine ⟨call, found, here.symm, foreground, admitted, ?_⟩
        rw [foreground, ← here] at free
        exact free
    refine { unpaused := changed.unpaused, single := changed.single, quiet := ?_ }
    intro each member waiting background
    rcases List.mem_or_eq_of_mem_set member with old | rfl
    · exact changed.quiet each old waiting background
    · cases waiting

theorem Steady.step (steady : state.Steady) (kept : state.Kept) {label : Label}
    (meets : Meets redis state label) : (step redis state label).Steady := by
  cases label with
  | redisClock elapsed =>
    exact { unpaused := steady.unpaused, single := steady.single, quiet := steady.quiet }
  | processClocks process wall monotonic =>
    refine steady.withManager (steady.unpaused process) fun _ _ _ _ _ quiet => ⟨quiet.1, ?_⟩
    exact @Manager.cooled_of_less (state.managers process) _
      (le_add_of_nonneg_right (NNRat.cast_nonneg monotonic)) (fun _ _ found => found) quiet.2
  | acquire process scope provider model token => exact steady.acquire kept meets
  | execute place => exact steady.execute kept meets
  | answer place reply => exact steady.answer meets
  | resume process provider place =>
    refine steady.withManager (Manager.unpaused_resume (steady.unpaused process) place) ?_
    intro call member waiting background here quiet
    refine Manager.quiet_resume quiet fun acquired => ?_
    exact meets.1 call member (waitsInBackground_of member waiting background)
      ⟨here.symm, acquired⟩
  | cancel process provider place =>
    exact steady.withManager (steady.unpaused process) fun _ _ _ _ _ quiet => quiet
  | release process place =>
    exact steady.withManager (Manager.unpaused_release (steady.unpaused process) place)
      fun _ _ _ _ _ quiet => Manager.quiet_release quiet place
  | recordResult process provider model outcome retryAfter reason =>
    refine steady.withManager ?_ ?_
    · obtain ⟨cooldowns, same⟩ := @Manager.recordResult_frame (state.managers process) provider
        model outcome retryAfter reason
      rw [same]
      exact steady.unpaused process
    · intro call member waiting background here quiet
      refine Manager.quiet_recordResult quiet fun sets => ?_
      exact meets.1 call member (waitsInBackground_of member waiting background)
        ⟨here.symm, sets⟩

/-- In every run the windows, leases and counters hold; in the runs that meet the condition
the background leases are in time and the slots single. -/
theorem game_budget_kept (redis : Bool) (clock : ℚ) (clocks : Nat → ℚ × ℚ)
    (labels : List Label) :
    (Run.run (step redis) (initial clock clocks) labels).Kept ∧
      (Run.Along (step redis) (Meets redis) (initial clock clocks) labels →
        (Run.run (step redis) (initial clock clocks) labels).Sound) := by
  refine ⟨Run.run_keeps State.Kept (fun _ label kept => kept.step label)
    (kept_initial clock clocks) labels, fun along => ?_⟩
  have both := along.carries (fun state => state.Kept ∧ state.Steady)
    ⟨kept_initial clock clocks, steady_initial clock clocks⟩
    fun _ label good meets => ⟨good.1.step label, good.2.step good.1 meets⟩
  exact both.2.toSound

def lite : String := "gemini-3.1-flash-lite"

/-- An admission whose script is sent twice. -/
def timely : List Label :=
  [.acquire 0 .background .aiStudio lite "a", .execute 0, .redisClock 59, .execute 0,
    .answer 0 (some true)]

/-- A rate limit while a background admission waits. -/
def overtaken : List Label :=
  [.acquire 0 .background .aiStudio lite "a", .execute 0,
    .recordResult 0 .aiStudio lite .rateLimit none [], .answer 0 (some true)]

/-- A script that is sent again after the minute. -/
def lateAgain : List Label :=
  [.acquire 0 .foreground .aiStudio lite "a", .execute 0, .redisClock 60, .execute 0]

def zero : State := initial 0 fun _ => (0, 0)

theorem game_budget_kept_timely :
    (Run.run (step true) zero timely).Kept ∧ (Run.run (step true) zero timely).Sound := by
  have both := game_budget_kept true 0 (fun _ => (0, 0)) timely
  exact ⟨both.1, both.2 (by decide +kernel)⟩

theorem game_budget_overtaken :
    ¬(Run.run (step true) zero overtaken).Sound ∧
      ¬(Run.run (step true) zero lateAgain).Sound := by
  constructor
  · intro sound
    have granted : ∃ grant ∈ ((Run.run (step true) zero overtaken).managers 0).grants,
        grant.scope = .background ∧ grant.cooled = true := by decide +kernel
    obtain ⟨grant, member, background, cooled⟩ := granted
    have free := (sound.unpaused 0 grant member background).2
    rw [cooled] at free
    cases free
  · intro sound
    exact absurd (sound.single lite) (by decide +kernel)

end State

end BobbyBotique.Games.Budget
