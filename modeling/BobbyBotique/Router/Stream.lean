import BobbyBotique.Router.Lanes
import Mathlib.Algebra.GroupWithZero.Nat

/-!
# The stream of a request

`ProviderRouter.stream`: a round of the hedged models or of one route after another,
and another round when a round failed before its first text.
-/

namespace BobbyBotique.Router

variable {T : Type}

/-- The generator of a round. -/
inductive Source (T : Type) where
  | hedged (hedge : Hedge T)
  | serial (serial : Serial T)

/-- The arguments of `_stream_serial` where no model is hedged. -/
def Request.direct (request : Request) (checksRate : Bool) : Route where
  checksRate := checksRate
  attemptLimit := 2 * request.keyAttemptRounds
  parallelLimit := 2 * request.keyAttemptRounds
  keyHedge := true
  rolling := request.recovers && request.allowKeyRace

/-- Only the first round of a request with a user checks the rate. -/
def Request.checksRate (request : Request) (round : Nat) : Bool :=
  decide (round = 0) && request.hasUser

def Request.source (request : Request) (round : Nat) : Source T :=
  if request.hedged then .hedged (Hedge.initial (request.checksRate round))
  else .serial (Serial.initial (request.direct (request.checksRate round)))

/-- `_retryable_interactive_failure`. -/
def retryable (failure : StreamFailed) : Bool :=
  decide (failure.phase = .beforeText) &&
    !(decide (failure.code = .rateLimit) && decide (failure.key = .unchanged)) &&
    (decide (failure.code = .keysExhausted) || decide (failure.key = .rateLimited) ||
      decide (failure.retry = .retryLater) ||
      ([.overloaded, .timeout, .network].contains failure.code &&
        decide (failure.retry ≠ .doNotRetry)))

/-- The event ends a round that is to be tried again. -/
def Event.recovers (request : Request) : Event T → Bool
  | .failed failure => request.recovers && retryable failure
  | _ => false

structure Stream (T : Type) where
  round : Nat
  source : Source T
  visible : Bool
  sleeping : Bool
  output : List (Event T)

inductive StreamLabel (T : Type) where
  | hedged (label : HedgeLabel T)
  | serial (label : SerialLabel T)
  /-- The pause before a recovery round is over. -/
  | wake

namespace Source

def output : Source T → List (Event T)
  | .hedged hedge => hedge.output
  | .serial route => route.output

def returned : Source T → Prop
  | .hedged hedge => hedge.stage = .returned
  | .serial route => route.stage = .returned

/-- The generator raised, or was interrupted. -/
def broken : Source T → Prop
  | .hedged hedge => hedge.stage = .raised ∨ hedge.stage = .interrupted
  | .serial route => route.stage = .raised ∨ route.stage = .interrupted

def step (request : Request) (round : Nat) : Source T → StreamLabel T → Source T
  | .hedged hedge, .hedged label => .hedged (hedge.step request label)
  | .serial route, .serial label =>
    .serial (route.step (request.direct (request.checksRate round)) label)
  | source, _ => source

end Source

namespace Stream

def initial (request : Request) : Stream T := ⟨0, request.source 0, false, false, []⟩

/-- An event of the round: it is yielded, or it leads to the next round. -/
def yield (request : Request) (stream : Stream T) (event : Event T) : Stream T :=
  let visible := stream.visible || event.delta?.isSome
  if !visible && event.recovers request then
    { stream with visible := visible, sleeping := true }
  else { stream with visible := visible, output := stream.output ++ [event] }

def step (request : Request) (stream : Stream T) : StreamLabel T → Stream T
  | .wake =>
    if stream.sleeping then
      { stream with
        round := stream.round + 1
        source := request.source (stream.round + 1)
        sleeping := false }
    else stream
  | label =>
    if stream.sleeping then stream
    else
      let next := stream.source.step request stream.round label
      let after := { stream with source := next }
      match next.output.drop stream.source.output.length with
      | [] => after
      | event :: _ => after.yield request event

end Stream

/-! ## What a round keeps -/

namespace Source

variable {source : Source T} {request : Request}

def Kept : Source T → Prop
  | .hedged hedge => hedge.Kept
  | .serial route => route.Kept

/-- The deltas are the first ones of one provider call. -/
def Said : Source T → List T → Prop
  | .hedged hedge => hedge.Said
  | .serial route => route.Said

/-- What a step may start behind the first event. -/
def Starts : Source T → Source T → Prop
  | .hedged before, .hedged after => before.Starts after
  | .serial before, .serial after => before.Starts after
  | _, _ => False

theorem source_kept (request : Request) (round : Nat) : (request.source round : Source T).Kept := by
  unfold Request.source
  split
  · exact Hedge.initial_kept _
  · exact Serial.initial_kept _

theorem source_quiet (request : Request) (round : Nat) :
    (request.source round : Source T).output = [] := by
  unfold Request.source
  split <;> rfl

theorem Kept.step (kept : source.Kept) (round : Nat) (label : StreamLabel T) :
    (source.step request round label).Kept := by
  cases source with
  | hedged hedge =>
    cases label with
    | hedged label => exact Hedge.Kept.step kept request label
    | serial | wake => exact kept
  | serial route =>
    cases label with
    | hedged label => exact kept
    | serial label => exact Serial.Kept.step kept label
    | wake => exact kept

/-- One event is yielded at most. -/
theorem Kept.yields (kept : source.Kept) (round : Nat) (label : StreamLabel T) :
    (source.step request round label).output = source.output ∨
      ∃ event, (source.step request round label).output = source.output ++ [event] := by
  cases source with
  | hedged hedge =>
    cases label with
    | hedged label => exact Hedge.step_yields label
    | serial | wake => exact .inl rfl
  | serial route =>
    cases label with
    | hedged label => exact .inl rfl
    | serial label => exact Serial.Kept.yields kept label
    | wake => exact .inl rfl

theorem Kept.settled (kept : source.Kept) (spoken : source.output ≠ []) (round : Nat)
    (label : StreamLabel T) : source.Starts (source.step request round label) := by
  cases source with
  | hedged hedge =>
    have same : hedge.Starts hedge := Hedge.starts_of_same rfl
    cases label with
    | hedged label => exact Hedge.Kept.settled kept spoken label
    | serial | wake => exact same
  | serial route =>
    have same : route.Starts route := ⟨rfl, rfl⟩
    cases label with
    | hedged label => exact same
    | serial label => exact Serial.Kept.settled kept spoken label
    | wake => exact same

theorem Kept.answers (kept : source.Kept) : Answers source.Said source.output := by
  cases source with
  | hedged hedge => exact Hedge.Kept.answers kept
  | serial route => exact Serial.Kept.answers kept

theorem Kept.complete (kept : source.Kept) (returned : source.returned) :
    Complete source.output := by
  cases source with
  | hedged hedge => exact Hedge.Kept.complete kept returned
  | serial route => exact Serial.Kept.complete kept returned

/-- A generator that breaks has yielded texts only. -/
theorem Kept.broken (kept : source.Kept) (broken : source.broken) :
    ∃ deltas : List T, source.output = deltas.map .text := by
  cases source with
  | hedged hedge =>
    have unfinished : hedge.stage ≠ .returned := by
      rintro same
      rcases broken with raised | interrupted
      · cases same.symm.trans raised
      · cases same.symm.trans interrupted
    obtain ⟨deltas, output, _⟩ := Hedge.Kept.spoken kept unfinished
    exact ⟨deltas, output⟩
  | serial route =>
    have unfinished : route.stage ≠ .returned := by
      rintro same
      rcases broken with raised | interrupted
      · cases same.symm.trans raised
      · cases same.symm.trans interrupted
    obtain ⟨deltas, output, _⟩ := Serial.Kept.spoken kept unfinished
    exact ⟨deltas, output⟩

end Source

namespace Stream

variable {stream : Stream T} {request : Request}

/-- A text was yielded. -/
def spoke (output : List (Event T)) : Bool := output.any fun event => event.delta?.isSome

structure Kept (stream : Stream T) : Prop where
  source : stream.source.Kept
  visible : stream.visible = spoke stream.output
  same : stream.sleeping = false → stream.output = stream.source.output
  asleep : stream.sleeping = true → stream.output = []

/-- An event without a text, before which no text was yielded, is the first event. -/
theorem first_event {said : List T → Prop} {output : List (Event T)} {event : Event T}
    (answers : Answers said (output ++ [event])) (quiet : spoke output = false) :
    output = [] := by
  refine answers.silent (List.cons_ne_nil _ _) fun other among => ?_
  have silent := List.any_eq_false.mp quiet other among
  cases delta : other.delta? with
  | none => rfl
  | some delta' =>
    rw [delta] at silent
    exact absurd rfl silent

theorem Kept.step (kept : stream.Kept) (request : Request) (label : StreamLabel T) :
    (stream.step request label).Kept := by
  have going : ∀ label : StreamLabel T, stream.sleeping = false →
      let next := stream.source.step request stream.round label
      let after := { stream with source := next }
      Kept (match next.output.drop stream.source.output.length with
        | [] => after
        | event :: _ => after.yield request event) := by
    intro label awake
    dsimp only
    have source := @Source.Kept.step T _ request kept.source stream.round label
    have output := kept.same awake
    rcases @Source.Kept.yields T _ request kept.source stream.round label with
      same | ⟨event, same⟩
    · rw [same, List.drop_length]
      refine ⟨source, kept.visible, fun _ => ?_, fun asleep => ?_⟩
      · exact output.trans same.symm
      · rw [awake] at asleep
        cases asleep
    · rw [same, List.drop_left]
      dsimp only [Stream.yield]
      split
      · next again =>
          obtain ⟨quiet, _⟩ := Bool.and_eq_true_iff.mp again
          rw [Bool.not_eq_true', Bool.or_eq_false_iff] at quiet
          have answers := source.answers
          rw [same, ← output] at answers
          have nothing := first_event answers (kept.visible ▸ quiet.1)
          refine ⟨source, ?_, (fun absurd => nomatch absurd), fun _ => nothing⟩
          dsimp only
          rw [quiet.1, quiet.2, nothing]
          rfl
      · refine ⟨source, ?_, fun _ => ?_, fun asleep => ?_⟩
        · dsimp only
          unfold spoke
          rw [kept.visible, List.any_append, List.any_cons, List.any_nil, Bool.or_false]
          rfl
        · dsimp only
          rw [output, same]
        · rw [awake] at asleep
          cases asleep
  cases label with
  | wake =>
    dsimp only [Stream.step]
    split
    · next asleep =>
        have quiet := kept.asleep asleep
        refine ⟨Source.source_kept _ _, kept.visible, fun _ => ?_, (fun absurd => nomatch absurd)⟩
        exact quiet.trans (Source.source_quiet _ _).symm
    · exact kept
  | hedged label =>
    dsimp only [Stream.step]
    split
    · exact kept
    · next awake => exact going (.hedged label) (Bool.eq_false_iff.mpr awake)
  | serial label =>
    dsimp only [Stream.step]
    split
    · exact kept
    · next awake => exact going (.serial label) (Bool.eq_false_iff.mpr awake)

theorem initial_kept (request : Request) : (initial request : Stream T).Kept where
  source := Source.source_kept _ _
  visible := rfl
  same _ := (Source.source_quiet _ _).symm
  asleep absurd := nomatch absurd

theorem round_of_step (label : StreamLabel T)
    (changed : (stream.step request label).round ≠ stream.round) : stream.sleeping = true := by
  refine Classical.byContradiction fun awake => ?_
  have same : ∀ next : Source T, (match next.output.drop stream.source.output.length with
      | [] => { stream with source := next }
      | event :: _ => { stream with source := next }.yield request event).round =
        stream.round := by
    intro next
    split
    · rfl
    · unfold Stream.yield
      dsimp only
      split <;> rfl
  cases label with
  | wake =>
    dsimp only [Stream.step] at changed
    rw [if_neg awake] at changed
    exact changed rfl
  | hedged label | serial label =>
    dsimp only [Stream.step] at changed
    rw [if_neg awake] at changed
    exact changed (same _)

/-- What a step of the stream starts once something was yielded. -/
theorem Kept.settled (kept : stream.Kept) (spoken : stream.output ≠ [])
    (label : StreamLabel T) : stream.source.Starts (stream.step request label).source := by
  have awake : stream.sleeping ≠ true := fun asleep => spoken (kept.asleep asleep)
  have said : stream.source.output ≠ [] :=
    kept.same (Bool.eq_false_iff.mpr awake) ▸ spoken
  have same : ∀ next : Source T, (match next.output.drop stream.source.output.length with
      | [] => { stream with source := next }
      | event :: _ => { stream with source := next }.yield request event).source = next := by
    intro next
    split
    · rfl
    · unfold Stream.yield
      dsimp only
      split <;> rfl
  cases label with
  | wake =>
    dsimp only [Stream.step]
    rw [if_neg awake]
    cases stream.source with
    | hedged hedge => exact Hedge.starts_of_same rfl
    | serial route => exact ⟨rfl, rfl⟩
  | hedged label =>
    dsimp only [Stream.step]
    rw [if_neg awake, same]
    exact kept.source.settled said stream.round (.hedged label)
  | serial label =>
    dsimp only [Stream.step]
    rw [if_neg awake, same]
    exact kept.source.settled said stream.round (.serial label)

end Stream

/--
What a stream has yielded after any steps is the first deltas of one provider call
and at most one terminal event behind them, which after deltas is a late one; a stream
that returned has yielded one.  A round starts only when nothing was yielded.  Once
something was, no lane is started, and a provider is called only in a lane that is
asked to stop and still races.
-/
theorem stream_answers_once (request : Request) (labels : List (StreamLabel T)) :
    let stream := Run.run (Stream.step request) (Stream.initial request) labels
    Answers stream.source.Said stream.output ∧
      (stream.sleeping = false → stream.source.returned → Complete stream.output) ∧
      (stream.sleeping = false → stream.source.broken →
        ∃ deltas : List T, stream.output = deltas.map .text) ∧
      (∀ label, (stream.step request label).round ≠ stream.round → stream.output = []) ∧
      (stream.output ≠ [] →
        ∀ label, stream.source.Starts (stream.step request label).source) := by
  intro stream
  have kept : stream.Kept := Run.run_keeps Stream.Kept
    (fun _ label kept => Stream.Kept.step kept request label)
    (Stream.initial_kept request) labels
  refine ⟨?_, ?_, ?_, ?_, ?_⟩
  · cases asleep : stream.sleeping with
    | true =>
      rw [kept.asleep asleep]
      exact Answers.nil
    | false =>
      rw [kept.same asleep]
      exact kept.source.answers
  · intro awake returned
    rw [kept.same awake]
    exact kept.source.complete returned
  · intro awake broken
    rw [kept.same awake]
    exact kept.source.broken broken
  · exact fun label changed => kept.asleep (Stream.round_of_step label changed)
  · exact fun spoken label => kept.settled spoken label

/-! ## A key behind the first text -/

/-- The calls of providers in a round. -/
def Source.dispatched : Source T → Nat
  | .hedged hedge => (hedge.lanes.map fun lane => lane.serial.dispatched).sum
  | .serial route => route.dispatched

/-- Two models, of which the first races its keys one after another. -/
def twoModels : Request where
  models := 2
  keyAttemptRounds := 1
  recovers := true
  allowKeyRace := true
  hedged := true
  hasUser := false

/-- The second model wins while the first prepares a reserve key. -/
def reserveRun : List (StreamLabel Nat) :=
  [.admission true, .lane 0 .nextModel, .lane 0 (.race 1 true), .lane 0 .softTimer,
    .timer false, .lane 1 .nextModel, .lane 1 (.race 1 false), .lane 1 (.run 0),
    .lane 1 (.emit 0 (.text 5)), .lane 1 .take, .turn].map .hedged

/-- The reserve key of the first model is dispatched behind the text of the second. -/
theorem late_key_is_dispatched :
    let stream := Run.run (Stream.step twoModels) (Stream.initial twoModels) reserveRun
    stream.output = [.text 5] ∧ stream.source.dispatched <
        (stream.step twoModels (.hedged (.lane 0 (.prepared 1 true)))).source.dispatched := by
  decide

end BobbyBotique.Router
