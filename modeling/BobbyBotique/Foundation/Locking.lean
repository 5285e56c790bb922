import BobbyBotique.Foundation.Dict
import BobbyBotique.Foundation.Run

/-!
# Transactions behind a lock

A transaction takes a lock before it reads, shared or exclusive, and what it
writes becomes visible when it commits.  Shared transactions may be open
together as long as none of them disturbs what another one has read.  Then
every run leaves the store that the committed transactions leave one after the
other.
-/

namespace BobbyBotique

/-- A kind of transactions over a store. -/
structure Locking (Store Txn View : Type) where
  /-- In this store the transaction asks for the shared lock. -/
  shared : Txn → Store → Bool
  /-- What the transaction reads while it holds the lock. -/
  look : Txn → Store → View
  /-- What the transaction writes once it has read. -/
  write : Txn → View → Store → Store
  /-- A shared transaction does not disturb another one. -/
  apart : ∀ first second store, shared first store = true → shared second store = true →
    shared first (write second (look second store) store) = true ∧
      look first (write second (look second store) store) = look first store

namespace Locking

variable {Store Txn View : Type}

/-- Transactions that all ask for the exclusive lock. -/
def exclusive (apply : Store → Txn → Store) : Locking Store Txn Store where
  shared _ _ := false
  look _ store := store
  write txn seen _ := apply seen txn
  apart _ _ _ mine := absurd mine Bool.false_ne_true

/-- An open transaction that holds the lock. -/
structure Session (Txn View : Type) where
  txn : Txn
  shared : Bool
  view : Option View

structure State (Store Txn View : Type) where
  store : Store
  sessions : Dict Nat (Session Txn View)

inductive Label (Txn : Type) where
  | acquire (session : Nat) (txn : Txn)
  | look (session : Nat)
  | commit (session : Nat)
  | abort (session : Nat)

/-- No transaction is open yet. -/
def initial (store : Store) : State Store Txn View := ⟨store, .empty⟩

variable (locking : Locking Store Txn View)

/-- The transaction may have its lock beside the locks that are held. -/
def grants (state : State Store Txn View) (txn : Txn) : Bool :=
  state.sessions.values.all fun session => session.shared && locking.shared txn state.store

/-- A transaction that cannot have its lock waits. -/
def step (state : State Store Txn View) : Label Txn → State Store Txn View
  | .acquire id txn =>
    if state.sessions.contains id = false ∧ locking.grants state txn = true then
      { state with
        sessions := state.sessions.set id ⟨txn, locking.shared txn state.store, none⟩ }
    else state
  | .look id =>
    { state with
      sessions := state.sessions.modify id fun session =>
        { session with view := some (locking.look session.txn state.store) } }
  | .commit id =>
    match state.sessions.get? id with
    | some ⟨txn, _, some view⟩ =>
      ⟨locking.write txn view state.store, state.sessions.del id⟩
    | _ => state
  | .abort id => { state with sessions := state.sessions.del id }

/-- The transaction alone. -/
def atomic (store : Store) (txn : Txn) : Store :=
  locking.write txn (locking.look txn store) store

/-- The transaction that a step commits. -/
def committed (state : State Store Txn View) : Label Txn → List Txn
  | .commit id =>
    match state.sessions.get? id with
    | some ⟨txn, _, some _⟩ => [txn]
    | _ => []
  | _ => []

/-- The transactions that a run commits, in their order. -/
def history (state : State Store Txn View) : List (Label Txn) → List Txn
  | [] => []
  | label :: rest => committed state label ++ history (locking.step state label) rest

/-- What holds between any two steps. -/
structure Consistent (state : State Store Txn View) : Prop where
  seen : ∀ id session view, state.sessions.get? id = some session → session.view = some view →
    view = locking.look session.txn state.store
  shares : ∀ id session, state.sessions.get? id = some session → session.shared = true →
    locking.shared session.txn state.store = true
  alone : ∀ id other session rival, state.sessions.get? id = some session →
    state.sessions.get? other = some rival → session.shared = false → other = id

variable {locking}

theorem consistent_initial (store : Store) : locking.Consistent (initial store) := by
  constructor
  · intro id session view found
    cases found
  · intro id session found
    cases found
  · intro id other session rival found
    cases found

theorem grants_of_get? {state : State Store Txn View} {txn : Txn}
    (granted : locking.grants state txn = true) {id : Nat} {session : Session Txn View}
    (found : state.sessions.get? id = some session) :
    session.shared = true ∧ locking.shared txn state.store = true := by
  have member := (state.sessions.mem_values_iff session).mpr ⟨id, found⟩
  exact Bool.and_eq_true_iff.mp (List.all_eq_true.mp granted session member)

/-- A commit writes what the transaction alone would write. -/
theorem Consistent.step_store {state : State Store Txn View}
    (consistent : locking.Consistent state) (label : Label Txn) :
    (locking.step state label).store =
      Run.run locking.atomic state.store (committed state label) := by
  cases label with
  | acquire id txn =>
    dsimp only [step]
    split <;> rfl
  | look | abort => rfl
  | commit id =>
    dsimp only [step, committed]
    cases found : state.sessions.get? id with
    | none => rfl
    | some session =>
      obtain ⟨txn, shared, view⟩ := session
      cases view with
      | none => rfl
      | some view =>
        have same := consistent.seen id _ view found rfl
        dsimp only at same ⊢
        rw [Run.run_cons, Run.run_nil, atomic, same]

/-- A transaction that is granted a lock beside others shares it with them. -/
theorem Consistent.acquire {state : State Store Txn View} (consistent : locking.Consistent state)
    (id : Nat) (txn : Txn) : locking.Consistent (locking.step state (.acquire id txn)) := by
  dsimp only [Locking.step]
  split
  · next allowed =>
      obtain ⟨absent, granted⟩ := allowed
      constructor
      · intro other session view found seen
        rw [Dict.get?_set] at found
        split at found
        · cases found
          cases seen
        · exact consistent.seen other session view found seen
      · intro other session found shared
        rw [Dict.get?_set] at found
        split at found
        · cases found
          exact shared
        · exact consistent.shares other session found shared
      · intro first second session rival found met exclusive
        rw [Dict.get?_set] at found met
        split at found <;> split at met
        · next here there => exact there.trans here.symm
        · cases found
          have shared := (grants_of_get? granted met).2
          exact absurd (exclusive.symm.trans shared) Bool.false_ne_true
        · have shared := (grants_of_get? granted found).1
          exact absurd (exclusive.symm.trans shared) Bool.false_ne_true
        · exact consistent.alone first second session rival found met exclusive
  · exact consistent

theorem Consistent.look {state : State Store Txn View} (consistent : locking.Consistent state)
    (id : Nat) : locking.Consistent (locking.step state (.look id)) := by
  have origin : ∀ other session,
      (locking.step state (.look id)).sessions.get? other = some session →
      ∃ before, state.sessions.get? other = some before ∧ before.txn = session.txn ∧
        before.shared = session.shared ∧
        (session = before ∨
          session.view = some (locking.look session.txn state.store)) := by
    intro other session found
    simp only [Locking.step, Dict.get?_modify] at found
    split at found
    · obtain ⟨before, earlier, rfl⟩ := Option.map_eq_some_iff.mp found
      exact ⟨before, earlier, rfl, rfl, .inr rfl⟩
    · exact ⟨session, found, rfl, rfl, .inl rfl⟩
  constructor
  · intro other session view found seen
    obtain ⟨before, earlier, txn, _, rfl | read⟩ := origin other session found
    · exact consistent.seen other session view earlier seen
    · exact Option.some.inj (seen.symm.trans read)
  · intro other session found shared
    obtain ⟨before, earlier, txn, same, _⟩ := origin other session found
    exact txn ▸ consistent.shares other before earlier (same.trans shared)
  · intro first second session rival found met exclusive
    obtain ⟨before, earlier, _, same, _⟩ := origin first session found
    obtain ⟨other, another, _⟩ := origin second rival met
    exact consistent.alone first second before other earlier another (same.trans exclusive)

theorem Consistent.abort {state : State Store Txn View} (consistent : locking.Consistent state)
    (id : Nat) : locking.Consistent (locking.step state (.abort id)) := by
  have kept : ∀ other session, (locking.step state (.abort id)).sessions.get? other = some session →
      state.sessions.get? other = some session := by
    intro other session found
    simp only [Locking.step, Dict.get?_del] at found
    split at found
    · cases found
    · exact found
  constructor
  · exact fun other session view found => consistent.seen other session view (kept _ _ found)
  · exact fun other session found => consistent.shares other session (kept _ _ found)
  · exact fun first second session rival found met =>
      consistent.alone first second session rival (kept _ _ found) (kept _ _ met)

/-- A commit leaves what the other open transactions have read. -/
theorem Consistent.commit {state : State Store Txn View} (consistent : locking.Consistent state)
    (id : Nat) : locking.Consistent (locking.step state (.commit id)) := by
  dsimp only [Locking.step]
  cases found : state.sessions.get? id with
  | none => exact consistent
  | some session =>
    obtain ⟨txn, shared, view⟩ := session
    cases view with
    | none => exact consistent
    | some view =>
      have same := consistent.seen id _ view found rfl
      dsimp only at same ⊢
      -- Whoever else is open shares the lock with the one that commits.
      have others : ∀ other rival, (state.sessions.del id).get? other = some rival →
          state.sessions.get? other = some rival ∧ rival.shared = true ∧
            locking.shared txn state.store = true := by
        intro other rival met
        rw [Dict.get?_del] at met
        split at met
        · cases met
        · next ne =>
            refine ⟨met, ?_, ?_⟩
            · refine Bool.eq_true_of_not_eq_false fun exclusive => ne ?_
              exact (consistent.alone other id rival _ met found exclusive).symm
            · refine consistent.shares id _ found ?_
              refine Bool.eq_true_of_not_eq_false fun exclusive => ne ?_
              exact consistent.alone id other _ rival found met exclusive
      have undisturbed : ∀ other rival, (state.sessions.del id).get? other = some rival →
          locking.shared rival.txn (locking.write txn view state.store) = true ∧
            locking.look rival.txn (locking.write txn view state.store) =
              locking.look rival.txn state.store := by
        intro other rival met
        obtain ⟨kept, shares, mine⟩ := others other rival met
        rw [same]
        exact locking.apart rival.txn txn state.store
          (consistent.shares other rival kept shares) mine
      constructor
      · intro other rival seen met view
        rw [(undisturbed other rival met).2]
        exact consistent.seen other rival seen (others other rival met).1 view
      · exact fun other rival met _ => (undisturbed other rival met).1
      · intro first second rival another met also exclusive
        exact consistent.alone first second rival another (others first rival met).1
          (others second another also).1 exclusive

theorem Consistent.step {state : State Store Txn View} (consistent : locking.Consistent state)
    (label : Label Txn) : locking.Consistent (locking.step state label) := by
  cases label with
  | acquire id txn => exact consistent.acquire id txn
  | look id => exact consistent.look id
  | abort id => exact consistent.abort id
  | commit id => exact consistent.commit id

/-- Every run leaves what its committed transactions leave one after the other. -/
theorem Consistent.run_store {state : State Store Txn View}
    (consistent : locking.Consistent state) (labels : List (Label Txn)) :
    (Run.run locking.step state labels).store =
      Run.run locking.atomic state.store (locking.history state labels) := by
  induction labels generalizing state with
  | nil => rfl
  | cons label rest ih =>
    rw [Run.run_cons, ih (consistent.step label), consistent.step_store label, history,
      Run.run_append]

variable (locking) in
/-- The state that a run reaches from a store without open transactions. -/
def reach (store : Store) (labels : List (Label Txn)) : State Store Txn View :=
  Run.run locking.step (initial store) labels

theorem reach_consistent (store : Store) (labels : List (Label Txn)) :
    locking.Consistent (locking.reach store labels) :=
  Run.run_keeps locking.Consistent (fun _ label consistent => consistent.step label)
    (consistent_initial store) labels

theorem reach_store (store : Store) (labels : List (Label Txn)) :
    (locking.reach store labels).store =
      Run.run locking.atomic store (locking.history (initial store) labels) :=
  (consistent_initial store).run_store labels

variable (locking) in
/-- What a run adds to the store after another one. -/
theorem reach_append_store (store : Store) (labels further : List (Label Txn)) :
    (locking.reach store (labels ++ further)).store =
      Run.run locking.atomic (locking.reach store labels).store
        (locking.history (locking.reach store labels) further) := by
  rw [← (reach_consistent store labels).run_store further]
  exact congrArg State.store (Run.run_append _ _ labels further)

variable (locking) in
/-- What one step adds to the store after a run. -/
theorem reach_next_store (store : Store) (labels : List (Label Txn)) (label : Label Txn) :
    (locking.reach store (labels ++ [label])).store =
      Run.run locking.atomic (locking.reach store labels).store
        (committed (locking.reach store labels) label) := by
  rw [← (reach_consistent store labels).step_store label]
  exact congrArg State.store (Run.run_append _ _ labels [label])

end Locking

end BobbyBotique
