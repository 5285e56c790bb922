/-!
# Runs of a deterministic machine

A machine is a step function; a run folds a list of labels over it.  `Along`
states that every step of a run meets a condition, which may look at the state
the step starts from.  The two rules below turn a fact about one step into a
fact about a run: one for an invariant, one for a relation between two runs.
-/

namespace BobbyBotique

namespace Run

variable {State Label : Type}

/-- The state after a list of labels. -/
def run (step : State → Label → State) (start : State) (labels : List Label) : State :=
  labels.foldl step start

/-- Every step of the run from `start` meets the condition. -/
def Along (step : State → Label → State) (holds : State → Label → Prop) :
    State → List Label → Prop
  | _, [] => True
  | state, label :: rest => holds state label ∧ Along step holds (step state label) rest

instance decidableAlong (step : State → Label → State) (holds : State → Label → Prop)
    [∀ state label, Decidable (holds state label)] (start : State) (labels : List Label) :
    Decidable (Along step holds start labels) :=
  match labels with
  | [] => .isTrue trivial
  | label :: rest =>
    have := decidableAlong step holds (step start label) rest
    inferInstanceAs (Decidable (holds start label ∧ Along step holds (step start label) rest))

@[simp] theorem run_nil (step : State → Label → State) (start : State) :
    run step start [] = start := rfl

@[simp] theorem run_cons (step : State → Label → State) (start : State) (label : Label)
    (rest : List Label) : run step start (label :: rest) = run step (step start label) rest :=
  rfl

theorem run_append (step : State → Label → State) (start : State) (first second : List Label) :
    run step start (first ++ second) = run step (run step start first) second :=
  List.foldl_append

/-- What every step keeps holds after every run. -/
theorem run_keeps (good : State → Prop) {step : State → Label → State}
    (keeps : ∀ state label, good state → good (step state label)) {start : State}
    (initial : good start) (labels : List Label) : good (run step start labels) := by
  induction labels generalizing start with
  | nil => exact initial
  | cons label rest ih => exact ih (keeps start label initial)

namespace Along

variable {step : State → Label → State} {holds weaker : State → Label → Prop}

theorem append {start : State} {first second : List Label} :
    Along step holds start (first ++ second) ↔
      Along step holds start first ∧ Along step holds (run step start first) second := by
  induction first generalizing start with
  | nil => exact (true_and _).to_iff.symm
  | cons label rest ih =>
    simp only [List.cons_append, Along, run_cons, ih, and_assoc]

/-- Two conditions agree along a run if they agree in good states, which each keeps. -/
theorem exact (good : State → Prop) {start : State} {labels : List Label} (initial : good start)
    (same : ∀ state label, good state → (holds state label ↔ weaker state label))
    (keeps : ∀ state label, good state → holds state label → good (step state label)) :
    Along step holds start labels ↔ Along step weaker start labels := by
  induction labels generalizing start with
  | nil => exact Iff.rfl
  | cons label rest ih =>
    rw [Along, Along, ← same start label initial]
    exact and_congr_right fun here => ih (keeps start label initial here)

/-- An invariant kept by every step that meets the condition holds at the end. -/
theorem invariant {good : State → Prop}
    (keeps : ∀ state label, good state → holds state label → good (step state label))
    {start : State} {labels : List Label} (initial : good start)
    (along : Along step holds start labels) : good (run step start labels) := by
  induction labels generalizing start with
  | nil => exact initial
  | cons label rest ih => exact ih (keeps _ _ initial along.1) along.2

/-- A property that each step keeps exactly if it meets the condition. -/
theorem iff_run (good stated : State → Prop)
    (keeps : ∀ state label, good state → good (step state label))
    (stepIff : ∀ state label, good state →
      (stated (step state label) ↔ stated state ∧ holds state label)) {start : State}
    (initial : good start) (labels : List Label) :
    stated (run step start labels) ↔ stated start ∧ Along step holds start labels := by
  induction labels generalizing start with
  | nil => exact (and_iff_left trivial).symm
  | cons label rest ih =>
    rw [run_cons, ih (keeps start label initial), stepIff start label initial, and_assoc, Along]

/-- The rule with its invariant in front, for runs from any state. -/
theorem carries (good : State → Prop) {start : State} {labels : List Label}
    (along : Along step holds start labels) (initial : good start)
    (keeps : ∀ state label, good state → holds state label → good (step state label)) :
    good (run step start labels) :=
  along.invariant keeps initial

end Along

/-- A state some run reaches from `start` through steps that meet the condition. -/
def Reachable (step : State → Label → State) (holds : State → Label → Prop)
    (start state : State) : Prop :=
  ∃ labels, Along step holds start labels ∧ run step start labels = state

namespace Reachable

variable {step : State → Label → State} {holds : State → Label → Prop} {start state : State}

theorem invariant {good : State → Prop} (reachable : Reachable step holds start state)
    (initial : good start)
    (keeps : ∀ state label, good state → holds state label → good (step state label)) :
    good state := by
  obtain ⟨labels, along, rfl⟩ := reachable
  exact along.invariant keeps initial

end Reachable

/-- The states a run passes through, its first and its last among them. -/
def trace (step : State → Label → State) : State → List Label → List State
  | state, [] => [state]
  | state, label :: rest => state :: trace step (step state label) rest

theorem head_mem_trace (step : State → Label → State) (start : State) (labels : List Label) :
    start ∈ trace step start labels := by
  cases labels with
  | nil => exact List.mem_singleton_self start
  | cons label rest => exact List.mem_cons_self

theorem run_mem_trace (step : State → Label → State) (start : State) (labels : List Label) :
    run step start labels ∈ trace step start labels := by
  induction labels generalizing start with
  | nil => exact List.mem_singleton_self start
  | cons label rest ih => exact List.mem_cons_of_mem start (ih (step start label))

theorem exists_run_of_mem_trace {step : State → Label → State} {start state : State}
    {labels : List Label} (passed : state ∈ trace step start labels) :
    ∃ first, run step start first = state := by
  induction labels generalizing start with
  | nil => exact ⟨[], (List.mem_singleton.mp passed).symm⟩
  | cons label rest ih =>
    rcases List.mem_cons.mp passed with same | later
    · exact ⟨[], same.symm⟩
    · obtain ⟨first, reached⟩ := ih later
      exact ⟨label :: first, reached⟩

/-- Of two states of a trace, a run leads from one to the other. -/
theorem trace_connected {step : State → Label → State} {start first second : State}
    {labels : List Label} (passed : first ∈ trace step start labels)
    (also : second ∈ trace step start labels) :
    (∃ between, run step first between = second) ∨
      ∃ between, run step second between = first := by
  induction labels generalizing start with
  | nil =>
    have same := (List.mem_singleton.mp passed).trans (List.mem_singleton.mp also).symm
    exact .inl ⟨[], same⟩
  | cons label rest ih =>
    rcases List.mem_cons.mp passed with same | later
    · rw [same]
      exact .inl (exists_run_of_mem_trace also)
    · rcases List.mem_cons.mp also with same | too
      · rw [same]
        exact .inr (exists_run_of_mem_trace passed)
      · exact ih later too

end Run

end BobbyBotique
