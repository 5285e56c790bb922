import BobbyBotique.Foundation.Dict
import BobbyBotique.Foundation.Run
import Mathlib.Algebra.Order.Ring.Unbundled.Rat

/-!
# Cooldowns of the keys

`KeyStatusManager` and the reservations of `DailyKeyManager` over any number of calls in
any order.  A suspension reads the failures of a key in one step and writes in another.
-/

namespace BobbyBotique.Router

/-- A key and a model. -/
abbrev KeyModel := String × String

/-- A row of `key_model_status`. -/
structure KeyStatus where
  suspended : Bool
  suspendedUntil : Option ℚ
  failureCount : Nat

inductive ErrorCategory where
  | permanent
  | quota
  | rateLimit
  | transient
  | other
  deriving DecidableEq

/-- `_compute_suspended_until`; `midnight` is the next one in Pacific time. -/
def computeSuspendedUntil (now midnight : ℚ) (category : ErrorCategory) (failures : Nat) : ℚ :=
  let multiplier : ℚ := 2 ^ min (failures - 1) 7
  match category with
  | .quota => midnight
  | .permanent => now + min (24 * 60 * 60 * multiplier) (7 * 24 * 60 * 60)
  | _ => now + min (15 * multiplier) 60

/-- `suspend_key` behind its read. -/
structure Suspension where
  name : KeyModel
  suspendedUntil : ℚ
  failures : Nat

/-- The two tables, the suspensions under way, and the reservations that were granted. -/
structure KeyHealth where
  now : ℚ
  rows : Dict KeyModel KeyStatus
  pending : Dict Nat Suspension
  usage : Dict (KeyModel × Nat) Nat
  granted : List (KeyModel × Nat)

inductive KeyLabel where
  | tick (instant : ℚ)
  | readFailures (call : Nat) (name : KeyModel) (category : ErrorCategory)
      (retryAfter : Option ℚ) (started midnight : ℚ)
  | writeSuspension (call : Nat)
  | recordSuccess (name : KeyModel)
  | reserveUsage (name : KeyModel) (day : Nat) (threshold : Option Nat)
  | incrementUsage (name : KeyModel) (day : Nat)

/-- The row keeps its key from being reserved. -/
def KeyStatus.blocks (row : KeyStatus) (now : ℚ) : Bool :=
  row.suspended && row.suspendedUntil.all fun stop => decide (now < stop)

namespace KeyHealth

def initial : KeyHealth := ⟨0, .empty, .empty, .empty, []⟩

/-- The write of `suspend_key`; `GREATEST` passes over `NULL`. -/
def suspend (state : KeyHealth) (told : Suspension) : KeyHealth :=
  let before := (state.rows.get? told.name).bind KeyStatus.suspendedUntil
  let stop := before.elim told.suspendedUntil fun old => max old told.suspendedUntil
  { state with rows := state.rows.set told.name ⟨true, some stop, told.failures⟩ }

def grant (state : KeyHealth) (name : KeyModel) (day count : Nat) : KeyHealth :=
  { state with
    usage := state.usage.set (name, day) count
    granted := state.granted ++ [(name, day)] }

def step (state : KeyHealth) : KeyLabel → KeyHealth
  | .tick instant => { state with now := max state.now instant }
  | .readFailures call name category retryAfter started midnight =>
    let failures := ((state.rows.get? name).elim 0 KeyStatus.failureCount) + 1
    let stop := computeSuspendedUntil state.now midnight category failures
    let asked := match retryAfter with
      | some seconds =>
        if category = .rateLimit ∨ category = .transient then
          max stop (started + min seconds (7 * 24 * 60 * 60))
        else stop
      | none => stop
    { state with pending := state.pending.set call ⟨name, asked, failures⟩ }
  | .writeSuspension call =>
    match state.pending.get? call with
    | none => state
    | some told => { state.suspend told with pending := state.pending.del call }
  | .recordSuccess name =>
    if (state.rows.get? name).all fun row => !row.suspended ||
        row.suspendedUntil.any fun stop => decide (stop ≤ state.now) then
      { state with rows := state.rows.set name ⟨false, none, 0⟩ }
    else state
  | .reserveUsage name day threshold =>
    if (state.rows.get? name).any fun row => row.blocks state.now then state
    else
      match state.usage.get? (name, day) with
      | none => state.grant name day 1
      | some count =>
        if threshold.all fun most => decide (count < most) then state.grant name day (count + 1)
        else state
  | .incrementUsage name day =>
    { state with usage := state.usage.set (name, day) (state.usage.getD (name, day) 0 + 1) }

/-- The key is suspended at least until an instant. -/
def Cooling (name : KeyModel) (stop : ℚ) (state : KeyHealth) : Prop :=
  ∃ row last, state.rows.get? name = some row ∧ row.suspended = true ∧
    row.suspendedUntil = some last ∧ stop ≤ last

variable {state : KeyHealth} {name : KeyModel} {stop : ℚ}

/-- Every suspension but a longer one leaves the end of a cooldown as it is. -/
theorem Cooling.suspend (cooling : state.Cooling name stop) (told : Suspension) :
    (state.suspend told).Cooling name stop := by
  obtain ⟨row, last, found, suspended, until_, late⟩ := cooling
  by_cases same : name = told.name
  · refine ⟨_, _, (congrArg _ same).trans (Dict.get?_set_self _ _ _), rfl, rfl, ?_⟩
    rw [← same, found, Option.bind_some, until_]
    exact late.trans (le_max_left _ _)
  · exact ⟨row, last, (Dict.get?_set_ne _ _ same).trans found, suspended, until_, late⟩

/-- Before its end a step leaves a cooldown in force and grants its key nothing. -/
theorem Cooling.step (cooling : state.Cooling name stop) (early : state.now < stop)
    (label : KeyLabel) :
    (state.step label).Cooling name stop ∧
      (state.step label).granted.filter (·.1 = name) = state.granted.filter (·.1 = name) := by
  obtain ⟨row, last, found, suspended, until_, late⟩ := id cooling
  have before : state.now < last := early.trans_le late
  cases label with
  | tick | readFailures | incrementUsage => exact ⟨cooling, rfl⟩
  | writeSuspension call =>
    unfold KeyHealth.step
    dsimp only
    split
    · exact ⟨cooling, rfl⟩
    · next told _ => exact ⟨cooling.suspend told, rfl⟩
  | recordSuccess other =>
    unfold KeyHealth.step
    dsimp only
    split
    · next free =>
        have ne : name ≠ other := by
          rintro rfl
          rw [found] at free
          simp [suspended, until_, before.not_ge] at free
        exact ⟨⟨row, last, (Dict.get?_set_ne _ _ ne).trans found, suspended, until_, late⟩, rfl⟩
    · exact ⟨cooling, rfl⟩
  | reserveUsage other day threshold =>
    unfold KeyHealth.step
    dsimp only
    split
    · exact ⟨cooling, rfl⟩
    next free =>
    have ne : other ≠ name := by
      rintro rfl
      simp [found, KeyStatus.blocks, suspended, until_, before] at free
    have apart (count : Nat) : ((state.grant other day count).granted).filter (·.1 = name) =
        state.granted.filter (·.1 = name) := by
      simp [grant, ne]
    split
    · exact ⟨cooling, apart _⟩
    · split
      · exact ⟨cooling, apart _⟩
      · exact ⟨cooling, rfl⟩

theorem now_le_step (label : KeyLabel) : state.now ≤ (state.step label).now := by
  unfold KeyHealth.step
  cases label with
  | tick instant => exact le_max_left _ _
  | readFailures | incrementUsage => exact le_rfl
  | writeSuspension | recordSuccess => dsimp only; split <;> exact le_rfl
  | reserveUsage name day threshold => dsimp only; repeat' split <;> try exact le_rfl

theorem now_le_run (labels : List KeyLabel) : state.now ≤ (Run.run step state labels).now :=
  Run.run_keeps (fun after : KeyHealth => state.now ≤ after.now)
    (fun _ label later => later.trans (now_le_step label)) le_rfl labels

/--
Once a suspension until an instant is written, no order of other suspensions, late ones
among them, of successes and reservations shortens it: until that instant the key stays
suspended and none of its reservations is granted.
-/
theorem suspension_respected (state : KeyHealth) (told : Suspension) (labels : List KeyLabel)
    (early : (Run.run step (state.suspend told) labels).now < told.suspendedUntil) :
    (Run.run step (state.suspend told) labels).Cooling told.name told.suspendedUntil ∧
      (Run.run step (state.suspend told) labels).granted.filter (·.1 = told.name) =
        state.granted.filter (·.1 = told.name) := by
  have written : (state.suspend told).Cooling told.name told.suspendedUntil := by
    refine ⟨_, _, Dict.get?_set_self _ _ _, rfl, rfl, ?_⟩
    cases (state.rows.get? told.name).bind KeyStatus.suspendedUntil with
    | none => exact le_rfl
    | some old => exact le_max_right _ _
  change _ ∧ _ = (state.suspend told).granted.filter _
  generalize state.suspend told = start at written early ⊢
  induction labels generalizing start with
  | nil => exact ⟨written, rfl⟩
  | cons label rest ih =>
    have soon := ((now_le_step label).trans (now_le_run rest)).trans_lt early
    obtain ⟨cooling, same⟩ := written.step soon label
    obtain ⟨last, kept⟩ := ih _ cooling early
    exact ⟨last, kept.trans same⟩

theorem suspension_respected_minute :
    (Run.run step (initial.suspend ⟨("k", "m"), 60, 1⟩)
      [.recordSuccess ("k", "m"), .reserveUsage ("k", "m") 0 none]).granted.filter
        (·.1 = ("k", "m")) = [] :=
  (suspension_respected initial ⟨("k", "m"), 60, 1⟩ _ (by decide +kernel)).2

/-- Reservations of one day are made below a threshold, and nothing else is counted. -/
def Below (name : KeyModel) (day most : Nat) : KeyLabel → Prop
  | .reserveUsage other today threshold =>
    (other, today) = (name, day) → ∃ least ∈ threshold, least ≤ most
  | .incrementUsage other today => (other, today) ≠ (name, day)
  | _ => True

/--
In every order of steps the counter of a key, a model and a day is the number of its
granted reservations, which never pass the highest threshold they are made with.
-/
theorem usage_counts (name : KeyModel) (day most : Nat) (positive : 1 ≤ most)
    (labels : List KeyLabel) (below : ∀ label ∈ labels, Below name day most label) :
    let state := Run.run step initial labels
    state.usage.getD (name, day) 0 = state.granted.count (name, day) ∧
      state.granted.count (name, day) ≤ most := by
  have kept : initial.usage.getD (name, day) 0 = initial.granted.count (name, day) ∧
      initial.granted.count (name, day) ≤ most := ⟨rfl, Nat.zero_le _⟩
  generalize initial = start at kept ⊢
  induction labels generalizing start with
  | nil => exact kept
  | cons label rest ih =>
    refine ih (fun other listed => below other (List.mem_cons_of_mem _ listed)) (start.step label) ?_
    have own := below label List.mem_cons_self
    cases label with
    | reserveUsage other today threshold =>
      unfold KeyHealth.step
      dsimp only
      split
      · exact kept
      by_cases same : (other, today) = (name, day)
      · obtain ⟨least, given, within⟩ := own same
        cases same
        cases given
        simp only [Dict.getD] at kept ⊢
        split
        · simp_all [grant]
          omega
        · split
          · simp_all [grant]
            omega
          · exact kept
      · have apart := Ne.symm same
        repeat' split
        all_goals simp_all [grant, Dict.getD, Dict.get?_set_ne]
    | incrementUsage other today =>
      simp_all [KeyHealth.step, Dict.getD, Dict.get?_set_ne _ _ (Ne.symm own)]
    | tick => exact kept
    | readFailures => exact kept
    | writeSuspension => unfold KeyHealth.step; dsimp only; split <;> exact kept
    | recordSuccess => unfold KeyHealth.step; dsimp only; split <;> exact kept

theorem usage_counts_one : (Run.run step initial [.reserveUsage ("k", "m") 0 (some 1),
    .reserveUsage ("k", "m") 0 (some 1)]).granted.count (("k", "m"), 0) ≤ 1 :=
  (usage_counts ("k", "m") 0 1 le_rfl _ (by simp [Below])).2

end KeyHealth

end BobbyBotique.Router
