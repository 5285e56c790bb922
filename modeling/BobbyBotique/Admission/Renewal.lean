import BobbyBotique.Admission.Semaphore

/-!
# Renewals of expired tokens

`_RENEW_SLOT` asks whether the token is in the sorted set, not how old its score
is.  The entry of an expired token stands until the next admission sweeps it, so
the log of the commands that the server executed tells which renewals meet one.
-/

namespace BobbyBotique.Admission

open Run

/-! ## The log of the server -/

/-- A command that the server executed, when, and what it answered. -/
structure Served where
  time : ℚ
  request : Request
  value : Nat

/-- The network and the log of its server, the newest command first. -/
structure Observed where
  net : Network
  log : List Served

namespace Observed

def step (config : Config) (observed : Observed) (label : Label) : Observed where
  net := observed.net.step config label
  log :=
    match label with
    | .execute number =>
      match observed.net.requests[number]? with
      | some request =>
        ⟨observed.net.clock, request,
          (serve config observed.net.slots observed.net.clock request).2⟩ :: observed.log
      | none => observed.log
    | _ => observed.log

def start (clock : ℚ) : Observed := ⟨.start clock, []⟩

end Observed

/-- The command granted or ended a lease of the token. -/
def Served.decides (served : Served) (token : Token) : Bool :=
  decide (served.request.token = token) &&
    (decide (served.request.command = .release) || served.value == 1)

/-- The commands behind the last one that decided about the token. -/
def behind (token : Token) (log : List Served) : List Served :=
  log.takeWhile fun served => !served.decides token

/-- When the lease of the token was granted last, if it was not released since. -/
def granted? (token : Token) (log : List Served) : Option ℚ :=
  match log.dropWhile fun served => !served.decides token with
  | [] => none
  | served :: _ => if served.request.command = .release then none else some served.time

/-- Among the commands there is an admission at this instant or a later one. -/
def swept (instant : ℚ) (log : List Served) : Bool :=
  log.any fun served =>
    decide (served.request.command = .admitSlot) && decide (instant ≤ served.time)

/-- What the log says about the sorted set. -/
def recorded (config : Config) (token : Token) (log : List Served) : Option ℚ :=
  (granted? token log).filter fun score => !swept (score + config.leaseTtl) (behind token log)

theorem granted?_cons (token : Token) (served : Served) (log : List Served) :
    granted? token (served :: log) =
      if served.decides token then
        if served.request.command = .release then none else some served.time
      else granted? token log := by
  unfold granted?
  cases decides : served.decides token with
  | true => simp only [List.dropWhile_cons, decides, Bool.not_true, Bool.false_eq_true, if_false,
      if_true]
  | false => simp only [List.dropWhile_cons, decides, Bool.not_false, if_true, Bool.false_eq_true,
      if_false]

theorem behind_cons (token : Token) (served : Served) (log : List Served) :
    behind token (served :: log) =
      if served.decides token then [] else served :: behind token log := by
  unfold behind
  cases decides : served.decides token with
  | true => simp only [List.takeWhile_cons, decides, Bool.not_true, Bool.false_eq_true, if_false,
      if_true]
  | false => simp only [List.takeWhile_cons, decides, Bool.not_false, if_true, Bool.false_eq_true,
      if_false]

theorem swept_cons (instant : ℚ) (served : Served) (log : List Served) :
    swept instant (served :: log) =
      ((decide (served.request.command = .admitSlot) && decide (instant ≤ served.time)) ||
        swept instant log) :=
  List.any_cons

/-- A decision stands in the log as it is. -/
theorem recorded_of_decides {config : Config} {token : Token} {served : Served}
    {log : List Served} (decides : served.decides token = true) :
    recorded config token (served :: log) =
      if served.request.command = .release then none else some served.time := by
  unfold recorded
  rw [granted?_cons, behind_cons, if_pos decides, if_pos decides]
  split
  · rfl
  · rfl

/-- Another command sweeps the token or leaves it. -/
theorem recorded_of_other {config : Config} {token : Token} {served : Served}
    {log : List Served} (other : served.decides token = false) :
    recorded config token (served :: log) =
      (recorded config token log).filter fun score =>
        !(decide (served.request.command = .admitSlot) &&
          decide (score + config.leaseTtl ≤ served.time)) := by
  unfold recorded
  rw [granted?_cons, behind_cons, if_neg (by rw [other]; exact Bool.false_ne_true),
    if_neg (by rw [other]; exact Bool.false_ne_true)]
  cases granted? token log with
  | none => rfl
  | some score =>
    rw [Option.filter_some, Option.filter_some, swept_cons]
    cases swept (score + config.leaseTtl) (behind token log) with
    | true =>
      rw [Bool.or_true]
      rfl
    | false =>
      rw [Bool.or_false, Bool.not_false, if_pos rfl, Option.filter_some]

theorem recorded_of_silent {config : Config} {token : Token} {served : Served}
    {log : List Served} (other : served.decides token = false)
    (silent : served.request.command ≠ .admitSlot) :
    recorded config token (served :: log) = recorded config token log := by
  rw [recorded_of_other other]
  cases recorded config token log with
  | none => rfl
  | some score => rw [Option.filter_some, decide_eq_false silent, Bool.false_and, Bool.not_false,
      if_pos rfl]

/-! ## The log and the sorted set -/

structure Observed.Faithful (config : Config) (observed : Observed) : Prop where
  clock : 0 ≤ observed.net.clock
  times : ∀ served ∈ observed.log, 0 ≤ served.time
  slots : ∀ token, observed.net.slots.get? token = recorded config token observed.log

theorem granted?_mem {token : Token} {log : List Served} {score : ℚ}
    (granted : granted? token log = some score) : ∃ served ∈ log, served.time = score := by
  induction log with
  | nil => cases granted
  | cons served rest ih =>
    rw [granted?_cons] at granted
    split at granted
    · split at granted
      · cases granted
      · exact ⟨served, List.mem_cons_self, Option.some.inj granted⟩
    · obtain ⟨other, among, same⟩ := ih granted
      exact ⟨other, List.mem_cons_of_mem served among, same⟩

theorem recorded_le {config : Config} {token : Token} {log : List Served} {score : ℚ}
    (times : ∀ served ∈ log, 0 ≤ served.time)
    (stands : recorded config token log = some score) : 0 ≤ score := by
  obtain ⟨granted, _⟩ := Option.filter_eq_some_iff.mp stands
  obtain ⟨served, among, rfl⟩ := granted?_mem granted
  exact times served among

/-- A sweep drops what has run out. -/
theorem get?_sweep {slots : Dict Token ℚ} {now ttl : ℚ} {token : Token}
    (positive : ∀ score, slots.get? token = some score → 0 ≤ score) :
    (zremrangebyscore slots (now - ttl)).get? token =
      (slots.get? token).filter fun score => !decide (score + ttl ≤ now) := by
  unfold zremrangebyscore
  rw [Dict.get?_retain]
  cases stored : slots.get? token with
  | none => rfl
  | some score =>
    have nonneg := positive score stored
    have same : score ≤ now - ttl ↔ score + ttl ≤ now := le_sub_iff_add_le
    rw [Option.filter_some, Option.filter_some, decide_eq_true nonneg, Bool.true_and,
      decide_eq_decide.mpr same]

/-- What one command does to the entry of a token, and what the log says then. -/
theorem serve_recorded {config : Config} {slots : Dict Token ℚ} {log : List Served} {now : ℚ}
    {token : Token} (request : Request) (times : ∀ served ∈ log, 0 ≤ served.time)
    (same : ∀ token, slots.get? token = recorded config token log) :
    (serve config slots now request).1.get? token =
      recorded config token (⟨now, request, (serve config slots now request).2⟩ :: log) := by
  have positive : ∀ score, slots.get? token = some score → 0 ≤ score := by
    intro score stored
    exact recorded_le times ((same token).symm.trans stored)
  obtain ⟨command, name, started⟩ := request
  cases command with
  | admitSlot =>
    have sweep := @get?_sweep slots now config.leaseTtl token positive
    unfold serve admitSlot
    dsimp only
    split
    · rw [recorded_of_other, sweep, same]
      · simp only [decide_true, Bool.true_and]
      · unfold Served.decides
        simp
    · by_cases mine : name = token
      · subst mine
        rw [recorded_of_decides, Dict.get?_set_self]
        · rfl
        · unfold Served.decides
          simp
      · rw [recorded_of_other, Dict.get?_set_ne _ _ (Ne.symm mine), sweep, same]
        · simp only [decide_true, Bool.true_and]
        · unfold Served.decides
          simp [mine]
  | renewSlot =>
    unfold serve renewSlot
    dsimp only
    split
    · rw [recorded_of_silent, same]
      · unfold Served.decides
        simp
      · exact SlotCommand.noConfusion
    · next old present =>
        by_cases mine : name = token
        · subst mine
          rw [recorded_of_decides, Dict.get?_set_self]
          · rfl
          · unfold Served.decides
            simp
        · rw [recorded_of_silent, Dict.get?_set_ne _ _ (Ne.symm mine), same]
          · unfold Served.decides
            simp [mine]
          · exact SlotCommand.noConfusion
  | release =>
    unfold serve zrem
    dsimp only
    by_cases mine : name = token
    · subst mine
      rw [recorded_of_decides, Dict.get?_del_self]
      · rfl
      · unfold Served.decides
        simp
    · rw [recorded_of_silent, Dict.get?_del_ne _ (Ne.symm mine), same]
      · unfold Served.decides
        simp [mine]
      · exact SlotCommand.noConfusion

/-- Only the server changes the sorted set, and only time the clock. -/
theorem Network.step_still (config : Config) (net : Network) {label : Label}
    (waits : ∀ number, label ≠ .execute number) (stays : ∀ elapsed, label ≠ .advance elapsed) :
    (net.step config label).slots = net.slots ∧ (net.step config label).clock = net.clock := by
  have option : ∀ {scope : Option SemaphoreScope} {act : SemaphoreScope → Network},
      (∀ scope, (act scope).slots = net.slots ∧ (act scope).clock = net.clock) →
      (scope.elim net act).slots = net.slots ∧ (scope.elim net act).clock = net.clock := by
    intro scope act same
    cases scope with
    | none => exact ⟨rfl, rfl⟩
    | some scope => exact same scope
  cases label with
  | advance elapsed => exact absurd rfl (stays elapsed)
  | enter process token => exact ⟨rfl, rfl⟩
  | sendAdmission token =>
    refine option fun scope => ?_
    unfold Network.sendAdmission
    split
    · split
      · exact ⟨rfl, rfl⟩
      · exact ⟨rfl, rfl⟩
    · exact ⟨rfl, rfl⟩
  | sendRenewal token =>
    refine option fun scope => ?_
    unfold Network.sendRenewal
    split
    · split
      · exact ⟨rfl, rfl⟩
      · exact ⟨rfl, rfl⟩
    · exact ⟨rfl, rfl⟩
  | execute number => exact absurd rfl (waits number)
  | receive reply =>
    refine option fun scope => ?_
    unfold Network.receive
    split
    · dsimp only
      split
      · exact ⟨rfl, rfl⟩
      · exact ⟨rfl, rfl⟩
    · exact ⟨rfl, rfl⟩
  | fail token =>
    refine option fun scope => ?_
    unfold Network.fail
    split
    · exact ⟨rfl, rfl⟩
    · split
      · split
        · exact ⟨rfl, rfl⟩
        · exact ⟨rfl, rfl⟩
      · split
        · exact ⟨rfl, rfl⟩
        · exact ⟨rfl, rfl⟩
      · exact ⟨rfl, rfl⟩
  | leave token =>
    refine option fun scope => ?_
    split
    · exact ⟨rfl, rfl⟩
    · exact ⟨rfl, rfl⟩

theorem faithful_start (config : Config) {clock : ℚ} (positive : 0 ≤ clock) :
    (Observed.start clock).Faithful config :=
  ⟨positive, fun _ absurd => (List.not_mem_nil absurd).elim, fun _ => rfl⟩

theorem Observed.Faithful.step {config : Config} {observed : Observed}
    (faithful : observed.Faithful config) {label : Label} (allowed : observed.net.Allowed label) :
    (observed.step config label).Faithful config := by
  have quiet : (∀ number, label ≠ .execute number) → (∀ elapsed, label ≠ .advance elapsed) →
      (observed.step config label).log = observed.log →
        (observed.step config label).Faithful config := by
    intro waits stays log
    obtain ⟨slots, clock⟩ := observed.net.step_still config waits stays
    refine ⟨faithful.clock.trans_eq clock.symm, ?_, fun token => ?_⟩
    · rw [log]
      exact faithful.times
    · rw [log]
      exact (congrArg (fun slots => slots.get? token) slots).trans (faithful.slots token)
  cases label with
  | advance elapsed =>
    exact ⟨add_nonneg faithful.clock allowed, faithful.times, faithful.slots⟩
  | execute number =>
    cases found : observed.net.requests[number]? with
    | none =>
      have same : observed.step config (.execute number) = observed := by
        unfold Observed.step Network.step
        dsimp only
        rw [found]
        rfl
      rw [same]
      exact faithful
    | some request =>
      have shape : observed.step config (.execute number) =
          ⟨observed.net.execute config number request, ⟨observed.net.clock, request,
            (serve config observed.net.slots observed.net.clock request).2⟩ ::
              observed.log⟩ := by
        unfold Observed.step Network.step
        dsimp only
        rw [found]
        rfl
      rw [shape]
      refine ⟨faithful.clock, ?_, ?_⟩
      · intro served among
        rcases List.mem_cons.mp among with rfl | among
        · exact faithful.clock
        · exact faithful.times served among
      · intro token
        exact serve_recorded request faithful.times faithful.slots
  | enter process token | sendAdmission token | sendRenewal token | receive reply | fail token
  | leave token => exact quiet (fun _ => Label.noConfusion) (fun _ => Label.noConfusion) rfl

/-! ## No resurrection -/

/-- The token is in the sorted set, and its lease has not run out. -/
def Network.live (config : Config) (net : Network) (token : Token) : Prop :=
  ∃ score, net.slots.get? token = some score ∧ net.clock < score + config.leaseTtl

/-- A renewal that the server accepts meets a lease that has not run out, and only an
admission of a token makes it live again. -/
def NoResurrection (config : Config) (net : Network) (label : Label) : Prop :=
  (∀ number request score, label = .execute number → net.requests[number]? = some request →
    request.command = .renewSlot → net.slots.get? request.token = some score →
      net.clock < score + config.leaseTtl) ∧
  ∀ token, ¬net.live config token → (net.step config label).live config token →
    ∃ number request, label = .execute number ∧ net.requests[number]? = some request ∧
      request.command = .admitSlot ∧ request.token = token

/-- A renewal reaches the server before the lease last granted to its token ends, or
behind an admission that came after that end. -/
def Timely (config : Config) (observed : Observed) (label : Label) : Prop :=
  ∀ number request granted, label = .execute number →
    observed.net.requests[number]? = some request → request.command = .renewSlot →
    granted? request.token observed.log = some granted →
      observed.net.clock < granted + config.leaseTtl ∨
        ∃ served ∈ behind request.token observed.log, served.request.command = .admitSlot ∧
          granted + config.leaseTtl ≤ served.time

theorem Observed.Faithful.entry {config : Config} {observed : Observed}
    (faithful : observed.Faithful config) (token : Token) (score : ℚ) :
    observed.net.slots.get? token = some score ↔ granted? token observed.log = some score ∧
      swept (score + config.leaseTtl) (behind token observed.log) = false := by
  rw [faithful.slots token, recorded, Option.filter_eq_some_iff, Bool.not_eq_true']

/-- Where an entry of the sorted set comes from. -/
theorem serve_entry {config : Config} {slots : Dict Token ℚ} {now score : ℚ} {token : Token}
    {request : Request} (stored : (serve config slots now request).1.get? token = some score) :
    slots.get? token = some score ∨ request.token = token ∧ (request.command = .admitSlot ∨
        request.command = .renewSlot ∧ ∃ old, slots.get? token = some old) := by
  obtain ⟨command, name, started⟩ := request
  cases command with
  | admitSlot =>
    have kept : ∀ {bound : ℚ}, (zremrangebyscore slots bound).get? token = some score →
        slots.get? token = some score :=
      fun found => ((slots.get?_retain_eq_some _ token score).mp found).1
    unfold serve admitSlot at stored
    dsimp only at stored
    split at stored
    · exact .inl (kept stored)
    · rw [Dict.get?_set] at stored
      split at stored
      · next same => exact .inr ⟨same.symm, .inl rfl⟩
      · exact .inl (kept stored)
  | renewSlot =>
    unfold serve renewSlot at stored
    dsimp only at stored
    split at stored
    · exact .inl stored
    · next old present =>
        rw [Dict.get?_set] at stored
        split at stored
        · next same => exact .inr ⟨same.symm, .inr ⟨rfl, old, same ▸ present⟩⟩
        · exact .inl stored
  | release => exact .inl (Dict.get?_del_eq_some.mp stored).2

/-- A token comes to life only at the server. -/
theorem live_of_step {config : Config} {net : Network} {label : Label} {token : Token}
    (allowed : net.Allowed label) (dead : ¬net.live config token)
    (live : (net.step config label).live config token) :
    ∃ number request, label = .execute number ∧ net.requests[number]? = some request ∧
      request.token = token ∧ (request.command = .admitSlot ∨
        request.command = .renewSlot ∧ ∃ old, net.slots.get? token = some old) := by
  have quiet : (∀ number, label ≠ .execute number) → (∀ elapsed, label ≠ .advance elapsed) →
      False := by
    intro waits stays
    obtain ⟨slots, clock⟩ := net.step_still config waits stays
    unfold Network.live at live
    rw [slots, clock] at live
    exact dead live
  cases label with
  | advance elapsed =>
    obtain ⟨score, stored, young⟩ := live
    have later : net.clock ≤ net.clock + elapsed := le_add_of_nonneg_right allowed
    exact absurd ⟨score, stored, later.trans_lt young⟩ dead
  | execute number =>
    cases found : net.requests[number]? with
    | none =>
      have same : net.step config (.execute number) = net := by
        unfold Network.step
        dsimp only
        rw [found]
        rfl
      exact absurd (same ▸ live) dead
    | some request =>
      have shape : net.step config (.execute number) = net.execute config number request := by
        unfold Network.step
        dsimp only
        rw [found]
        rfl
      rw [shape] at live
      obtain ⟨score, stored, young⟩ := live
      rcases serve_entry stored with old | ⟨mine, command⟩
      · exact absurd ⟨score, old, young⟩ dead
      · exact ⟨number, request, rfl, found, mine, command⟩
  | enter | sendAdmission | sendRenewal | receive | fail | leave =>
    exact (quiet (fun _ => Label.noConfusion) fun _ => Label.noConfusion).elim

/-- One step resurrects no token exactly when its renewal is timely. -/
theorem timely_iff {config : Config} {observed : Observed} {label : Label}
    (faithful : observed.Faithful config) (allowed : observed.net.Allowed label) :
    Timely config observed label ↔ NoResurrection config observed.net label := by
  constructor
  · intro timely
    have accepted : ∀ number request score, label = .execute number →
        observed.net.requests[number]? = some request → request.command = .renewSlot →
        observed.net.slots.get? request.token = some score →
          observed.net.clock < score + config.leaseTtl := by
      intro number request score named found command stored
      obtain ⟨granted, stands⟩ := (faithful.entry request.token score).mp stored
      rcases timely number request score named found command granted with
        young | ⟨served, among, admission, late⟩
      · exact young
      · have gone : swept (score + config.leaseTtl) (behind request.token observed.log) = true := by
          refine List.any_eq_true.mpr ⟨served, among, ?_⟩
          rw [decide_eq_true admission, decide_eq_true late]
          rfl
        rw [stands] at gone
        cases gone
    refine ⟨accepted, fun token dead live => ?_⟩
    obtain ⟨number, request, named, found, mine, command⟩ := live_of_step allowed dead live
    rcases command with admission | ⟨renewal, old, stored⟩
    · exact ⟨number, request, named, found, admission, mine⟩
    · have young := accepted number request old named found renewal (mine.symm ▸ stored)
      exact absurd ⟨old, stored, young⟩ dead
  · rintro ⟨accepted, _⟩ number request granted named found command given
    by_contra late
    obtain ⟨ended, unswept⟩ := not_or.mp late
    apply ended
    apply accepted number request granted named found command
    refine (faithful.entry request.token granted).mpr ⟨given, ?_⟩
    apply List.any_eq_false.mpr
    intro served among swept
    obtain ⟨admission, past⟩ := Bool.and_eq_true_iff.mp swept
    exact unswept ⟨served, among, of_decide_eq_true admission, of_decide_eq_true past⟩

/-- A run resurrects no token exactly when all its renewals are timely. -/
theorem renewals_resurrect_nothing_iff (config : Config) (clock : ℚ) (labels : List Label)
    (positive : 0 ≤ clock)
    (allowed : Along (Network.step config) Network.Allowed (.start clock) labels) :
    Along (Observed.step config) (Timely config) (.start clock) labels ↔
      Along (Network.step config) (NoResurrection config) (.start clock) labels := by
  have run : ∀ observed : Observed, observed.Faithful config →
      Along (Network.step config) Network.Allowed observed.net labels →
      (Along (Observed.step config) (Timely config) observed labels ↔
        Along (Network.step config) (NoResurrection config) observed.net labels) := by
    clear allowed
    induction labels with
    | nil => exact fun _ _ _ => Iff.rfl
    | cons label rest ih =>
      intro observed faithful allowed
      exact and_congr (timely_iff faithful allowed.1)
        (ih (observed.step config label) (faithful.step allowed.1) allowed.2)
  exact run (.start clock) (faithful_start config positive) allowed

/-- One slot, a lease of two minutes, and clocks that agree. -/
def oneSlot : Config := ⟨1, 120, 120, fun _ => 0⟩

/-- A token is admitted, and its renewal is on its way. -/
def renewing : List Label :=
  [.enter 0 "a", .sendAdmission "a", .execute 0, .receive ⟨0, ⟨.admitSlot, "a", 0⟩, 1⟩,
    .advance 40, .sendRenewal "a"]

theorem renewals_resurrect_nothing_iff_renewing :
    Along (Observed.step oneSlot) (Timely oneSlot) (.start 0) (renewing ++ [.execute 1]) ↔
      Along (Network.step oneSlot) (NoResurrection oneSlot) (.start 0)
        (renewing ++ [.execute 1]) :=
  renewals_resurrect_nothing_iff oneSlot 0 _ le_rfl (by decide +kernel)

/-- A renewal that is delivered late brings an expired token back. -/
theorem late_renewal_resurrects :
    Along (Network.step oneSlot) Network.Allowed (.start 0)
        (renewing ++ [.advance 200, .execute 1]) ∧
      ¬Along (Network.step oneSlot) (NoResurrection oneSlot) (.start 0)
        (renewing ++ [.advance 200, .execute 1]) := by
  refine ⟨by decide +kernel, fun along => ?_⟩
  have last := (Along.append.mp along).2.2.1.1
  have young := last 1 ⟨.renewSlot, "a", 40⟩ 0 rfl (by decide +kernel) rfl (by decide +kernel)
  revert young
  decide +kernel

end BobbyBotique.Admission
