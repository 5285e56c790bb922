import BobbyBotique.Foundation.Run
import Mathlib.Data.List.Basic

/-!
# Outstanding updates

`OutstandingUpdateQueue`: the queue counts what was accepted until it is done, and
producers wait for capacity.  A future that has its result is no longer in the
deque, but its producer runs only later: it may be overtaken or cancelled first.
-/

namespace BobbyBotique.Updates

open Run

/-- A producer in `put` with its item, and whether it was cancelled. -/
structure Waiter (T : Type) where
  producer : Nat
  item : T
  cancelled : Bool

def Waiter.of {T : Type} (producer : Nat) (waiter : Waiter T) : Bool :=
  waiter.producer == producer

/-- The queue and its producers: those in the deque, those whose future has its result,
and those whose cancelled future was taken from the deque. -/
structure OutstandingQueue (T : Type) where
  maxsize : Nat
  items : List T
  outstanding : Nat
  unfinished : Nat
  capacityWaiters : List (Waiter T)
  woken : List (Waiter T)
  dropped : List (Waiter T)
  /-- What was accepted and what was fetched, in order, and how often a task was done. -/
  accepted : List T
  fetched : List T
  finished : Nat

inductive QueueLabel (T : Type) where
  | put (producer : Nat) (item : T)
  | putNowait (item : T)
  | get
  | taskDone
  /-- The task of a producer is cancelled. -/
  | cancel (producer : Nat)
  /-- The task of a producer runs on. -/
  | resume (producer : Nat)

namespace OutstandingQueue

variable {T : Type}

def initial (capacity : Nat) : OutstandingQueue T where
  maxsize := capacity
  items := []
  outstanding := 0
  unfinished := 0
  capacityWaiters := []
  woken := []
  dropped := []
  accepted := []
  fetched := []
  finished := 0

def full (queue : OutstandingQueue T) : Bool := decide (queue.maxsize ≤ queue.outstanding)

/-- `_wake_producer` on a deque: what it drops, whom it wakes, and what is left. -/
def wakeFirst : List (Waiter T) → List (Waiter T) × Option (Waiter T) × List (Waiter T)
  | [] => ([], none, [])
  | waiter :: rest =>
    if waiter.cancelled then
      let behind := wakeFirst rest
      (waiter :: behind.1, behind.2)
    else ([], some waiter, rest)

def wakeProducer (queue : OutstandingQueue T) : OutstandingQueue T :=
  let woken := wakeFirst queue.capacityWaiters
  { queue with
    capacityWaiters := woken.2.2
    woken := queue.woken ++ woken.2.1.toList
    dropped := queue.dropped ++ woken.1 }

/-- `put_nowait`, where the queue is not full. -/
def accept (queue : OutstandingQueue T) (item : T) : OutstandingQueue T :=
  { queue with
    items := queue.items ++ [item]
    outstanding := queue.outstanding + 1
    unfinished := queue.unfinished + 1
    accepted := queue.accepted ++ [item] }

/-- The loop of `put`: the item is accepted, or its producer waits at the end. -/
def tryPut (queue : OutstandingQueue T) (producer : Nat) (item : T) : OutstandingQueue T :=
  if queue.full then
    { queue with capacityWaiters := queue.capacityWaiters ++ [⟨producer, item, false⟩] }
  else queue.accept item

/-- The handler of `put`: a producer that gives up hands free capacity on. -/
def giveUp (queue : OutstandingQueue T) : OutstandingQueue T :=
  if queue.full then queue else queue.wakeProducer

def step (queue : OutstandingQueue T) : QueueLabel T → OutstandingQueue T
  | .put producer item =>
    if (queue.capacityWaiters ++ queue.woken ++ queue.dropped).any (Waiter.of producer) then queue
    else queue.tryPut producer item
  | .putNowait item => if queue.full then queue else queue.accept item
  | .get =>
    match queue.items with
    | [] => queue
    | item :: rest => { queue with items := rest, fetched := queue.fetched ++ [item] }
  | .taskDone =>
    if queue.unfinished = 0 then queue
    else
      { queue with
        unfinished := queue.unfinished - 1
        outstanding := queue.outstanding - 1
        finished := queue.finished + 1 }.wakeProducer
  | .cancel producer =>
    let mark (waiter : Waiter T) : Waiter T :=
      if Waiter.of producer waiter then { waiter with cancelled := true } else waiter
    { queue with
      capacityWaiters := queue.capacityWaiters.map mark
      woken := queue.woken.map mark }
  | .resume producer =>
    match queue.woken.find? (Waiter.of producer) with
    | some waiter =>
      let next := { queue with woken := queue.woken.eraseP (Waiter.of producer) }
      if waiter.cancelled then next.giveUp else next.tryPut producer waiter.item
    | none =>
      if queue.dropped.any (Waiter.of producer) then
        { queue with dropped := queue.dropped.eraseP (Waiter.of producer) }.giveUp
      else if queue.capacityWaiters.any fun waiter =>
          Waiter.of producer waiter && waiter.cancelled then
        { queue with
          capacityWaiters := queue.capacityWaiters.eraseP fun waiter =>
            Waiter.of producer waiter && waiter.cancelled }.giveUp
      else queue

/-- A producer waits: its future is in the deque and has no result. -/
def Waits (queue : OutstandingQueue T) : Prop :=
  ∃ waiter ∈ queue.capacityWaiters, waiter.cancelled = false

/-- While a producer waits, every free place but a few has a producer woken for it. -/
structure Balanced (queue : OutstandingQueue T) (missing : Nat) : Prop where
  counts : queue.unfinished = queue.outstanding
  total : queue.outstanding + queue.finished = queue.accepted.length
  within : queue.outstanding ≤ queue.maxsize
  order : queue.fetched ++ queue.items = queue.accepted
  handed : queue.Waits → queue.maxsize ≤ queue.outstanding + queue.woken.length + missing

theorem initial_balanced (capacity : Nat) :
    (initial capacity : OutstandingQueue T).Balanced 0 :=
  ⟨rfl, rfl, Nat.zero_le _, rfl, fun ⟨_, absurd, _⟩ => (List.not_mem_nil absurd).elim⟩

/-! ## Whom a wakeup reaches -/

/-- A wakeup reaches a producer, or none waits. -/
theorem wakeFirst_spec (waiters : List (Waiter T)) :
    ((wakeFirst waiters).2.1 = none ∧ ∀ waiter ∈ waiters, waiter.cancelled = true) ∨
      (∃ waiter, (wakeFirst waiters).2.1 = some waiter) ∧
        (wakeFirst waiters).2.2 <:+ waiters := by
  induction waiters with
  | nil => exact .inl ⟨rfl, fun _ absurd => (List.not_mem_nil absurd).elim⟩
  | cons waiter rest ih =>
    rw [wakeFirst]
    split
    · next cancelled =>
        rcases ih with ⟨none, all⟩ | ⟨found, behind⟩
        · refine .inl ⟨none, fun other among => ?_⟩
          rcases List.mem_cons.mp among with rfl | among
          · exact cancelled
          · exact all other among
        · exact .inr ⟨found, behind.trans (List.suffix_cons waiter rest)⟩
    · exact .inr ⟨⟨waiter, rfl⟩, List.suffix_cons waiter rest⟩

theorem wakeFirst_rest (waiters : List (Waiter T)) : (wakeFirst waiters).2.2 <:+ waiters := by
  induction waiters with
  | nil => exact List.suffix_refl []
  | cons waiter rest ih =>
    rw [wakeFirst]
    split
    · exact ih.trans (List.suffix_cons waiter rest)
    · exact List.suffix_cons waiter rest

variable {queue : OutstandingQueue T}

/-- A wakeup makes up for a missing one. -/
theorem Balanced.wakeProducer (balanced : queue.Balanced 1) : queue.wakeProducer.Balanced 0 := by
  refine ⟨balanced.counts, balanced.total, balanced.within, balanced.order, ?_⟩
  rintro ⟨waiter, among, pending⟩
  unfold OutstandingQueue.wakeProducer at among ⊢
  dsimp only at among ⊢
  rcases wakeFirst_spec queue.capacityWaiters with ⟨_, all⟩ | ⟨⟨first, found⟩, rest⟩
  · have inside := (wakeFirst_rest queue.capacityWaiters).subset among
    have cancelled := all waiter inside
    rw [pending] at cancelled
    cases cancelled
  · have before := balanced.handed ⟨waiter, rest.subset among, pending⟩
    rw [found, List.length_append]
    exact before

theorem Balanced.accept (balanced : queue.Balanced 1) (room : queue.full = false) (item : T) :
    (queue.accept item).Balanced 0 := by
  have below : queue.outstanding < queue.maxsize := Nat.not_le.mp (of_decide_eq_false room)
  constructor
  case counts => exact congrArg (· + 1) balanced.counts
  case total =>
    have total := balanced.total
    unfold OutstandingQueue.accept
    dsimp only
    rw [List.length_append, List.length_singleton]
    omega
  case within => exact below
  case order =>
    unfold OutstandingQueue.accept
    rw [← List.append_assoc, balanced.order]
  case handed =>
    intro waits
    have before := balanced.handed waits
    unfold OutstandingQueue.accept
    dsimp only
    omega

theorem Balanced.mono (balanced : queue.Balanced 0) : queue.Balanced 1 :=
  ⟨balanced.counts, balanced.total, balanced.within, balanced.order,
    fun waits => Nat.le_succ_of_le (balanced.handed waits)⟩

/-- A producer that tries again uses the place it was woken for, or finds the queue full. -/
theorem Balanced.tryPut (balanced : queue.Balanced 1) (producer : Nat) (item : T) :
    (queue.tryPut producer item).Balanced 0 := by
  unfold OutstandingQueue.tryPut
  split
  · next full =>
      refine ⟨balanced.counts, balanced.total, balanced.within, balanced.order, fun _ => ?_⟩
      exact Nat.le_trans (of_decide_eq_true full) (Nat.le_add_right _ _)
  · next room => exact balanced.accept (Bool.eq_false_iff.mpr room) item

/-- A producer that gives up hands its place on, or the queue is full. -/
theorem Balanced.giveUp (balanced : queue.Balanced 1) : queue.giveUp.Balanced 0 := by
  unfold OutstandingQueue.giveUp
  split
  · next full =>
      refine ⟨balanced.counts, balanced.total, balanced.within, balanced.order, fun _ => ?_⟩
      exact Nat.le_trans (of_decide_eq_true full) (Nat.le_add_right _ _)
  · exact balanced.wakeProducer

/-- Fewer waiting producers and the same woken ones. -/
theorem Balanced.fewer {next : OutstandingQueue T} {missing more : Nat}
    (balanced : queue.Balanced missing) (maxsize : next.maxsize = queue.maxsize)
    (items : next.items = queue.items) (outstanding : next.outstanding = queue.outstanding)
    (unfinished : next.unfinished = queue.unfinished) (accepted : next.accepted = queue.accepted)
    (fetched : next.fetched = queue.fetched) (finished : next.finished = queue.finished)
    (waits : next.Waits → queue.Waits)
    (woken : queue.woken.length + missing ≤ next.woken.length + more) : next.Balanced more := by
  constructor
  case counts => rw [unfinished, outstanding, balanced.counts]
  case total => rw [outstanding, finished, accepted, balanced.total]
  case within => rw [outstanding, maxsize]; exact balanced.within
  case order => rw [fetched, items, accepted, balanced.order]
  case handed =>
    intro waiting
    have before := balanced.handed (waits waiting)
    omega

theorem Balanced.step (balanced : queue.Balanced 0) (label : QueueLabel T) :
    (queue.step label).Balanced 0 := by
  cases label with
  | put producer item =>
    dsimp only [OutstandingQueue.step]
    split
    · exact balanced
    · exact balanced.mono.tryPut producer item
  | putNowait item =>
    dsimp only [OutstandingQueue.step]
    split
    · exact balanced
    · next room => exact balanced.mono.accept (Bool.eq_false_iff.mpr room) item
  | get =>
    dsimp only [OutstandingQueue.step]
    split
    · exact balanced
    · next item rest stored =>
        refine ⟨balanced.counts, balanced.total, balanced.within, ?_, balanced.handed⟩
        have order := balanced.order
        rw [stored] at order
        exact (List.append_assoc ..).trans order
  | taskDone =>
    dsimp only [OutstandingQueue.step]
    split
    · exact balanced
    · next some =>
        have counts := balanced.counts
        have total := balanced.total
        have within := balanced.within
        apply Balanced.wakeProducer
        refine ⟨?_, ?_, ?_, balanced.order, fun waits => ?_⟩
        · exact congrArg (· - 1) counts
        · dsimp only
          omega
        · dsimp only
          omega
        · have before := balanced.handed waits
          dsimp only
          omega
  | cancel producer =>
    refine balanced.fewer rfl rfl rfl rfl rfl rfl rfl ?_ ?_
    · rintro ⟨waiter, among, pending⟩
      obtain ⟨origin, listed, same⟩ := List.mem_map.mp among
      refine ⟨origin, listed, ?_⟩
      split at same
      · rw [← same] at pending
        cases pending
      · rw [same]
        exact pending
    · exact Nat.le_of_eq (congrArg (· + 0) (List.length_map _).symm)
  | resume producer =>
    dsimp only [OutstandingQueue.step]
    split
    · next waiter found =>
        have fewer : Balanced { queue with
            woken := queue.woken.eraseP (Waiter.of producer) } 1 := by
          refine balanced.fewer rfl rfl rfl rfl rfl rfl rfl id ?_
          have shorter := List.length_eraseP (p := Waiter.of producer) (l := queue.woken)
          dsimp only
          split at shorter
          · omega
          · omega
        split
        · exact fewer.giveUp
        · exact fewer.tryPut producer waiter.item
    · split
      · apply Balanced.giveUp
        exact balanced.fewer rfl rfl rfl rfl rfl rfl rfl id (Nat.le_add_right _ _)
      · split
        · apply Balanced.giveUp
          refine balanced.fewer rfl rfl rfl rfl rfl rfl rfl ?_ (Nat.le_add_right _ _)
          rintro ⟨waiter, among, pending⟩
          exact ⟨waiter, List.eraseP_subset among, pending⟩
        · exact balanced

theorem tryPut_maxsize (producer : Nat) (item : T) :
    (queue.tryPut producer item).maxsize = queue.maxsize := by
  unfold OutstandingQueue.tryPut
  split
  · rfl
  · rfl

theorem giveUp_maxsize : queue.giveUp.maxsize = queue.maxsize := by
  unfold OutstandingQueue.giveUp
  split
  · rfl
  · rfl

theorem step_maxsize (label : QueueLabel T) : (queue.step label).maxsize = queue.maxsize := by
  cases label with
  | put producer item =>
    dsimp only [OutstandingQueue.step]
    split
    · rfl
    · exact tryPut_maxsize producer item
  | putNowait item | get | taskDone =>
    dsimp only [OutstandingQueue.step]
    split
    · rfl
    · rfl
  | cancel producer => rfl
  | resume producer =>
    dsimp only [OutstandingQueue.step]
    split
    · split
      · exact giveUp_maxsize
      · exact tryPut_maxsize producer _
    · split
      · exact giveUp_maxsize
      · split
        · exact giveUp_maxsize
        · rfl

/-- After every run the outstanding updates are those buffered and those fetched and
not done, at most the capacity; they come out in their order; and no producer waits
for free capacity that nobody was woken for. -/
theorem capacity_is_handed_on (capacity : Nat) (labels : List (QueueLabel T)) :
    let queue := run step (initial capacity : OutstandingQueue T) labels
    (queue.outstanding : Int) = queue.items.length + (queue.fetched.length - queue.finished) ∧
      queue.outstanding ≤ capacity ∧ queue.fetched <+: queue.accepted ∧
      ¬(queue.outstanding < capacity ∧ queue.Waits ∧ queue.woken = []) := by
  intro queue
  have balanced : queue.Balanced 0 :=
    run_keeps (fun queue : OutstandingQueue T => queue.Balanced 0) (fun _ label kept => kept.step label)
      (initial_balanced capacity) labels
  have size : queue.maxsize = capacity :=
    run_keeps (fun queue : OutstandingQueue T => queue.maxsize = capacity)
      (fun _ label same => (step_maxsize label).trans same) rfl labels
  refine ⟨?_, ?_, ?_, ?_⟩
  · have total := balanced.total
    rw [← balanced.order, List.length_append] at total
    omega
  · rw [← size]
    exact balanced.within
  · exact ⟨queue.items, balanced.order⟩
  · rintro ⟨free, waits, nobody⟩
    have handed := balanced.handed waits
    rw [nobody, List.length_nil] at handed
    omega

end OutstandingQueue

end BobbyBotique.Updates
