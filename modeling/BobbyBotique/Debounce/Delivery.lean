import BobbyBotique.Debounce.Slots
import BobbyBotique.Foundation.Entries

/-!
# No message is lost

Every call stands in one slot, unless a collection of speech took its message for another
purpose or a photo was refused.  The slot answers its owner with all of its entries.
-/

namespace BobbyBotique.Debounce

open Entries

/-! ## Entries of all slots -/

def Batch.calls (batch : Batch) : List Nat := batch.entries.map Entry.call

/-- The calls of all entries of all slots. -/
def placed (batches : List Batch) : List Nat := batches.flatMap Batch.calls

theorem placed_append (batches : List Batch) (batch : Batch) :
    placed (batches ++ [batch]) = placed batches ++ batch.calls := by
  simp [placed, List.flatMap_append]

theorem count_set {batches : List Batch} {place : Nat} {old : Batch}
    (there : batches[place]? = some old) (new : Batch) (call : Nat) :
    (placed (batches.set place new)).count call + old.calls.count call =
      (placed batches).count call + new.calls.count call := by
  induction batches generalizing place with
  | nil => simp at there
  | cons batch rest ih =>
    cases place with
    | zero =>
      obtain rfl : batch = old := by simpa using there
      simp only [List.set_cons_zero, placed, List.flatMap_cons, List.count_append]
      omega
    | succ place =>
      have later := @ih place (by simpa using there)
      simp only [placed] at later
      simp only [List.set_cons_succ, placed, List.flatMap_cons, List.count_append]
      omega

/-- A call that stands in two slots is counted twice. -/
theorem count_two {batches : List Batch} {first second : Nat} {one other : Batch} {call : Nat}
    (there : batches[first]? = some one) (here : batches[second]? = some other)
    (apart : first ≠ second) (stands : call ∈ one.calls) (too : call ∈ other.calls) :
    2 ≤ (placed batches).count call := by
  have without := count_set there { one with entries := [] } call
  have none : Batch.calls { one with entries := [] } = [] := rfl
  rw [none, List.count_nil] at without
  have stays : (batches.set first { one with entries := [] })[second]? = some other :=
    (List.getElem?_set_ne apart).trans here
  have inside : call ∈ placed (batches.set first { one with entries := [] }) :=
    List.mem_flatMap.mpr ⟨other, List.mem_of_getElem? stays, too⟩
  have remains := List.count_pos_iff.mpr inside
  have mine := List.count_pos_iff.mpr stands
  omega

/-- The message of the call stands in no slot. -/
def Call.left (call : Call) : Bool :=
  call.excuse.isSome || decide (call.reply = .injected false)

def Batch.isSpeech (batch : Batch) : Bool :=
  match batch.slot with
  | .window .. => false
  | .speech .. => true

/-- A collection whose owner waits. -/
def Batch.Gathers (batch : Batch) : Prop := batch.stage = .waiting ∧ batch.isSpeech = true

/-- What holds of every slot. -/
structure Batch.Formed (batch : Batch) : Prop where
  ordered : batch.calls.Pairwise (· < ·)
  owned : batch.owner ∈ batch.calls
  alive : batch.isOpen = true → batch.stage = .waiting ∧
    ∃ timeout burst, batch.slot = .window (some timeout) false burst
  gathered : batch.isSpeech = true → batch.stage = .waiting ∨ batch.stage = .returned

/-- What the owner of a slot has been told. -/
def Batch.reply (batch : Batch) : Reply :=
  if batch.stage = .returned then .result batch.result else .pending

/-- The reply to a call of a slot. -/
def Batch.Answers (batch : Batch) (number : Nat) (reply : Reply) : Prop :=
  if number = batch.owner then reply = batch.reply else reply = .absorbed ∨ reply = .injected true

namespace Debouncer

/-- What the calls and the slots say of each other. -/
structure Kept (state : Debouncer) : Prop where
  once : ∀ number call, state.calls[number]? = some call →
    (placed state.batches).count number = if call.left then 0 else 1
  known : ∀ number ∈ placed state.batches, number < state.calls.length
  formed : ∀ batch ∈ state.batches, batch.Formed
  replies : ∀ batch ∈ state.batches, ∀ number ∈ batch.calls, ∀ call,
    state.calls[number]? = some call → batch.Answers number call.reply
  excused : ∀ call ∈ state.calls, call.excuse.isSome = true → call.reply = .absorbed
  collecting : ∀ place, state.speechSlot = some place → ∃ batch,
    state.batches[place]? = some batch ∧ batch.Gathers

variable {state : Debouncer} {place : Nat} {old batch : Batch} {message : Message} {reply : Reply}
  {excuse : Option Excuse}

theorem mem_placed {batches : List Batch} (member : batch ∈ batches) {number : Nat}
    (stands : number ∈ batch.calls) : number ∈ placed batches :=
  List.mem_flatMap.mpr ⟨batch, member, stands⟩

/-- The number of the next call stands nowhere. -/
theorem Kept.fresh (kept : state.Kept) : state.calls.length ∉ placed state.batches :=
  fun member => absurd (kept.known _ member) (Nat.lt_irrefl _)

/-- A call that joins no slot. -/
theorem Kept.pass (kept : state.Kept)
    (left : (Call.mk message reply excuse).left = true)
    (excused : excuse.isSome = true → reply = .absorbed) :
    (state.pass message reply excuse).Kept := by
  constructor
  · intro number call there
    rcases getElem?_concat_cases there with ⟨-, before⟩ | ⟨rfl, rfl⟩
    · exact kept.once number call before
    · rw [left, if_pos rfl]
      exact List.count_eq_zero.mpr kept.fresh
  · intro number member
    have within := kept.known number member
    simp [Debouncer.pass]
    omega
  · exact kept.formed
  · intro batch member number stands call there
    rcases getElem?_concat_cases there with ⟨-, before⟩ | ⟨rfl, rfl⟩
    · exact kept.replies batch member number stands call before
    · exact absurd (mem_placed member stands) kept.fresh
  · intro call member
    rcases List.mem_append.mp member with before | new
    · exact kept.excused call before
    · rw [List.mem_singleton.mp new]
      exact excused
  · exact kept.collecting

/-- The slot that collects speech still gathers after a change that leaves it waiting. -/
theorem Kept.gathers (kept : state.Kept) (there : state.batches[place]? = some old)
    (waits : old.Gathers → state.speechSlot = some place → batch.Gathers) (registered : Nat)
    (speech : state.speechSlot = some registered) : ∃ other,
      (state.batches.set place batch)[registered]? = some other ∧ other.Gathers := by
  obtain ⟨other, found, waiting⟩ := kept.collecting registered speech
  by_cases same : place = registered
  · subst same
    obtain ⟨inside, -⟩ := List.getElem?_eq_some_iff.mp there
    rw [there] at found
    cases found
    exact ⟨batch, List.getElem?_set_self inside, waits waiting speech⟩
  · exact ⟨other, (List.getElem?_set_ne same).trans found, waiting⟩

theorem Kept.shut (kept : state.Kept) (there : state.batches[place]? = some batch)
    (stage : batch.stage ≠ .waiting) : batch.isOpen = false := by
  cases alive : batch.isOpen with
  | false => rfl
  | true => exact absurd ((kept.formed batch (List.mem_of_getElem? there)).alive alive).1 stage

/-- A change of a slot that keeps its calls, and its owner waiting. -/
theorem Kept.put (kept : state.Kept) (there : state.batches[place]? = some old)
    (calls : batch.calls = old.calls) (owner : batch.owner = old.owner)
    (reply : batch.reply = old.reply) (formed : batch.Formed)
    (waits : old.Gathers → state.speechSlot = some place → batch.Gathers) :
    (state.put place batch).Kept := by
  constructor
  · intro number call found
    have counts := count_set there batch number
    rw [calls] at counts
    have before := kept.once number call found
    change (placed (state.batches.set place batch)).count number = _
    omega
  · intro number member
    refine kept.known number ?_
    obtain ⟨other, inside, stands⟩ := List.mem_flatMap.mp member
    rcases List.mem_or_eq_of_mem_set inside with before | rfl
    · exact mem_placed before stands
    · exact mem_placed (List.mem_of_getElem? there) (calls ▸ stands)
  · intro other inside
    rcases List.mem_or_eq_of_mem_set inside with before | rfl
    · exact kept.formed other before
    · exact formed
  · intro other inside number stands call found
    rcases List.mem_or_eq_of_mem_set inside with before | rfl
    · exact kept.replies other before number stands call found
    · have same := kept.replies old (List.mem_of_getElem? there) number (calls ▸ stands) call found
      unfold Batch.Answers at same ⊢
      rw [owner, reply]
      exact same
  · exact kept.excused
  · exact kept.gathers there waits

/-- A call that joins a slot. -/
theorem Kept.join (kept : state.Kept) (there : state.batches[place]? = some old)
    (calls : batch.calls = old.calls ++ [state.calls.length]) (owner : batch.owner = old.owner)
    (stage : old.stage = .waiting ∧ batch.stage = .waiting)
    (kind : batch.isSpeech = old.isSpeech)
    (alive : batch.isOpen = true → ∃ timeout burst, batch.slot = .window (some timeout) false burst)
    (reply' : reply = .absorbed ∨ reply = .injected true) :
    (state.join place batch message reply).Kept := by
  have before := kept.formed old (List.mem_of_getElem? there)
  have left : (Call.mk message reply none).left = false := by
    rcases reply' with rfl | rfl <;> rfl
  have replies : batch.reply = old.reply := by
    unfold Batch.reply
    simp [stage.1, stage.2]
  have within : ∀ number ∈ old.calls, number < state.calls.length := fun number stands =>
    kept.known number (mem_placed (List.mem_of_getElem? there) stands)
  have formed : batch.Formed := by
    refine ⟨?_, ?_, fun isOpen => ⟨stage.2, alive isOpen⟩, fun _ => .inl stage.2⟩
    · rw [calls]
      refine List.pairwise_append.mpr ⟨before.ordered, List.pairwise_singleton _ _, ?_⟩
      intro number stands last new
      rw [List.mem_singleton.mp new]
      exact within number stands
    · rw [calls, owner]
      exact List.mem_append_left _ before.owned
  have notOwner : state.calls.length ≠ old.owner := fun same =>
    absurd (within old.owner before.owned) (by omega)
  constructor
  · intro number call found
    have counts := count_set there batch number
    rw [calls, List.count_append] at counts
    change (placed (state.batches.set place batch)).count number = _
    rcases getElem?_concat_cases found with ⟨less, earlier⟩ | ⟨rfl, rfl⟩
    · have same := kept.once number call earlier
      have apart : state.calls.length ≠ number := by omega
      rw [List.count_singleton, if_neg (by simpa using apart)] at counts
      omega
    · have fresh := List.count_eq_zero.mpr kept.fresh
      rw [List.count_singleton, if_pos (by simp)] at counts
      rw [left, if_neg (by simp)]
      omega
  · intro number member
    have longer : (state.join place batch message reply).calls.length =
        state.calls.length + 1 := by simp [Debouncer.join]
    rw [longer]
    obtain ⟨other, inside, stands⟩ := List.mem_flatMap.mp member
    rcases List.mem_or_eq_of_mem_set inside with earlier | rfl
    · have less := kept.known number (mem_placed earlier stands)
      omega
    · rw [calls] at stands
      rcases List.mem_append.mp stands with earlier | new
      · have less := within number earlier
        omega
      · rw [List.mem_singleton.mp new]
        exact Nat.lt_succ_self _
  · intro other inside
    rcases List.mem_or_eq_of_mem_set inside with earlier | rfl
    · exact kept.formed other earlier
    · exact formed
  · intro other inside number stands call found
    rcases List.mem_or_eq_of_mem_set inside with earlier | rfl
    · rcases getElem?_concat_cases found with ⟨-, found⟩ | ⟨rfl, rfl⟩
      · exact kept.replies other earlier number stands call found
      · exact absurd (mem_placed earlier stands) kept.fresh
    · rw [calls] at stands
      rcases getElem?_concat_cases found with ⟨less, found⟩ | ⟨rfl, rfl⟩
      · have stands : number ∈ old.calls := by
          rcases List.mem_append.mp stands with earlier | new
          · exact earlier
          · have same := List.mem_singleton.mp new
            omega
        have same := kept.replies old (List.mem_of_getElem? there) number stands call found
        unfold Batch.Answers at same ⊢
        rw [owner, replies]
        exact same
      · unfold Batch.Answers
        rw [owner, if_neg notOwner]
        exact reply'
  · intro call member
    rcases List.mem_append.mp member with earlier | new
    · exact kept.excused call earlier
    · rw [List.mem_singleton.mp new]
      exact fun some => by cases some
  · exact kept.gathers there fun gathers _ => ⟨stage.2, kind.trans gathers.2⟩

/-- The registry of collections may forget one or take one that waits. -/
theorem Kept.register (kept : state.Kept) {window speech : Option Nat}
    (waits : ∀ place, speech = some place → ∃ batch,
      state.batches[place]? = some batch ∧ batch.Gathers) :
    Kept { state with windowSlot := window, speechSlot := speech } :=
  ⟨kept.once, kept.known, kept.formed, kept.replies, kept.excused, waits⟩

/-- A call that brings a slot of its own. -/
theorem Kept.own (kept : state.Kept) (calls : batch.calls = [state.calls.length])
    (owner : batch.owner = state.calls.length)
    (alive : batch.isOpen = true → batch.stage = .waiting ∧
      ∃ timeout burst, batch.slot = .window (some timeout) false burst)
    (gathered : batch.isSpeech = true → batch.stage = .waiting ∨ batch.stage = .returned) :
    (state.own batch message batch.reply).Kept := by
  have left : (Call.mk message batch.reply none).left = false := by
    unfold Batch.reply Call.left
    split <;> rfl
  have all : placed (state.own batch message batch.reply).batches =
      placed state.batches ++ [state.calls.length] := by
    rw [← calls]
    exact placed_append state.batches batch
  constructor
  · intro number call found
    rw [all, List.count_append]
    rcases getElem?_concat_cases found with ⟨less, earlier⟩ | ⟨rfl, rfl⟩
    · have apart : state.calls.length ≠ number := by omega
      rw [List.count_singleton, if_neg (by simpa using apart)]
      exact kept.once number call earlier
    · rw [List.count_singleton, if_pos (by simp), left, if_neg (by simp),
        List.count_eq_zero.mpr kept.fresh]
  · intro number member
    rw [all] at member
    have longer : (state.own batch message batch.reply).calls.length =
        state.calls.length + 1 := by simp [Debouncer.own]
    rw [longer]
    rcases List.mem_append.mp member with earlier | new
    · have less := kept.known number earlier
      omega
    · rw [List.mem_singleton.mp new]
      exact Nat.lt_succ_self _
  · intro other inside
    rcases List.mem_append.mp inside with earlier | new
    · exact kept.formed other earlier
    · rw [List.mem_singleton.mp new]
      refine ⟨?_, ?_, alive, gathered⟩
      · rw [calls]
        exact List.pairwise_singleton _ _
      · rw [calls, owner]
        exact List.mem_singleton_self _
  · intro other inside number stands call found
    rcases List.mem_append.mp inside with earlier | new
    · rcases getElem?_concat_cases found with ⟨-, found⟩ | ⟨rfl, rfl⟩
      · exact kept.replies other earlier number stands call found
      · exact absurd (mem_placed earlier stands) kept.fresh
    · rw [List.mem_singleton.mp new] at stands ⊢
      rw [calls] at stands
      have same := List.mem_singleton.mp stands
      subst same
      rcases getElem?_concat_cases found with ⟨less, -⟩ | ⟨-, rfl⟩
      · omega
      · unfold Batch.Answers
        rw [owner, if_pos rfl]
  · intro call member
    rcases List.mem_append.mp member with earlier | new
    · exact kept.excused call earlier
    · rw [List.mem_singleton.mp new]
      exact fun some => by cases some
  · intro registered speech
    obtain ⟨other, found, waiting⟩ := kept.collecting registered speech
    obtain ⟨inside, -⟩ := List.getElem?_eq_some_iff.mp found
    exact ⟨other, (List.getElem?_append_left inside).trans found, waiting⟩

/-- A call that stands in a slot is not left out. -/
theorem Kept.placed_left (kept : state.Kept) {number : Nat} {call : Call}
    (found : state.calls[number]? = some call) (stands : number ∈ placed state.batches) :
    call.left = false := by
  have counts := kept.once number call found
  cases left : call.left with
  | false => rfl
  | true =>
    rw [left, if_pos rfl] at counts
    exact absurd stands (List.count_eq_zero.mp counts)

/-- The owner of a slot that has waited returns the result. -/
theorem Kept.answer (kept : state.Kept) (there : state.batches[place]? = some old)
    (calls : batch.calls = old.calls) (owner : batch.owner = old.owner)
    (after : batch.stage = .returned)
    (shut : batch.isOpen = false) {speech : Option Nat}
    (forgets : ∀ other, speech = some other → other ≠ place ∧ state.speechSlot = some other) :
    Kept { (state.put place batch).answer batch with speechSlot := speech } := by
  have inside := List.mem_of_getElem? there
  have formed := kept.formed old inside
  have stands : batch.owner ∈ placed state.batches := mem_placed inside (owner ▸ formed.owned)
  have counts : ∀ number, (placed (state.batches.set place batch)).count number =
      (placed state.batches).count number := by
    intro number
    have same := count_set there batch number
    rw [calls] at same
    omega
  -- only the owner's reply changes
  have changed : ∀ number call, ((state.put place batch).answer batch).calls[number]? = some call →
      ∃ earlier, state.calls[number]? = some earlier ∧ (number ≠ batch.owner ∧ call = earlier ∨
        number = batch.owner ∧ call = { earlier with reply := .result batch.result }) := by
    intro number call found
    change (state.calls.modify batch.owner _)[number]? = some call at found
    rw [List.getElem?_modify] at found
    obtain ⟨earlier, found, same⟩ := Option.map_eq_some_iff.mp found
    refine ⟨earlier, found, ?_⟩
    by_cases mine : batch.owner = number
    · rw [if_pos mine] at same
      exact .inr ⟨mine.symm, same.symm⟩
    · rw [if_neg mine] at same
      exact .inl ⟨fun equal => mine equal.symm, same.symm⟩
  constructor
  · intro number call found
    obtain ⟨earlier, held, same⟩ := changed number call found
    change (placed (state.batches.set place batch)).count number = _
    rw [counts number, kept.once number earlier held]
    rcases same with ⟨-, rfl⟩ | ⟨rfl, rfl⟩
    · rfl
    · have left := kept.placed_left held stands
      have none : earlier.excuse.isSome = false := by
        rw [Call.left, Bool.or_eq_false_iff] at left
        exact left.1
      rw [left, Call.left, none]
      rfl
  · intro number member
    change number ∈ placed (state.batches.set place batch) at member
    have length : ((state.put place batch).answer batch).calls.length = state.calls.length := by
      simp [Debouncer.answer, Debouncer.put]
    refine Nat.lt_of_lt_of_eq (kept.known number ?_) length.symm
    have positive := List.count_pos_iff.mpr member
    rw [counts number] at positive
    exact List.count_pos_iff.mp positive
  · intro other member
    rcases List.mem_or_eq_of_mem_set member with earlier | rfl
    · exact kept.formed other earlier
    · refine ⟨calls ▸ formed.ordered, ?_, ?_, fun _ => .inr after⟩
      · rw [calls, owner]
        exact formed.owned
      · intro isOpen
        rw [shut] at isOpen
        cases isOpen
  · intro other member number within call found
    obtain ⟨earlier, held, same⟩ := changed number call found
    obtain ⟨index, at'⟩ := List.mem_iff_getElem?.mp member
    change (state.batches.set place batch)[index]? = some other at at'
    by_cases here : place = index
    · subst here
      obtain ⟨bound, -⟩ := List.getElem?_eq_some_iff.mp there
      rw [List.getElem?_set_self bound] at at'
      cases at'
      have answers := kept.replies old inside number (calls ▸ within) earlier held
      unfold Batch.Answers at answers ⊢
      rcases same with ⟨apart, rfl⟩ | ⟨rfl, rfl⟩
      · rw [if_neg apart]
        rwa [if_neg (owner ▸ apart)] at answers
      · rw [if_pos rfl, Batch.reply, if_pos after]
    · have elsewhere : state.batches[index]? = some other :=
        (List.getElem?_set_ne here).symm.trans at'
      have answers := kept.replies other (List.mem_of_getElem? elsewhere) number within earlier held
      rcases same with ⟨-, rfl⟩ | ⟨rfl, rfl⟩
      · exact answers
      · have twice := count_two there elsewhere here (owner ▸ formed.owned) within
        have once := kept.once _ earlier held
        rw [once] at twice
        split at twice <;> omega
  · intro call member
    obtain ⟨number, found⟩ := List.mem_iff_getElem?.mp member
    obtain ⟨earlier, held, same⟩ := changed number call found
    rcases same with ⟨-, rfl⟩ | ⟨rfl, rfl⟩
    · exact kept.excused call (List.mem_of_getElem? held)
    · have left := kept.placed_left held stands
      rw [Call.left, Bool.or_eq_false_iff] at left
      intro some
      rw [left.1] at some
      cases some
  · intro registered some'
    obtain ⟨apart, speech'⟩ := forgets registered some'
    obtain ⟨other, found, waiting⟩ := kept.collecting registered speech'
    exact ⟨other, (List.getElem?_set_ne (Ne.symm apart)).trans found, waiting⟩

/-! ### Messages -/

theorem openSlot_some (found : state.openSlot = some (place, batch)) :
    state.batches[place]? = some batch ∧ batch.isOpen = true := by
  unfold openSlot at found
  split at found
  · split at found
    · next there =>
        split at found
        · next shut =>
            cases found
            exact ⟨there, shut⟩
        · cases found
    · cases found
  · cases found

theorem Kept.injectForwardedPhoto (kept : state.Kept) (message : Message) :
    (state.injectForwardedPhoto message).Kept := by
  unfold Debouncer.injectForwardedPhoto
  split
  · next place batch found =>
      obtain ⟨there, shut⟩ := openSlot_some found
      obtain ⟨waiting, timeout, burst, slot⟩ :=
        (kept.formed batch (List.mem_of_getElem? there)).alive shut
      have joined : batch.inject (buildEntry state.calls.length message) = { batch with
          entries := batch.entries ++ [buildEntry state.calls.length message]
          slot := .window (some timeout) false true } := by
        rw [Batch.inject, slot]
      rw [joined]
      refine kept.join there ?_ rfl ⟨waiting, waiting⟩ ?_ (fun _ => ⟨timeout, true, rfl⟩) (.inr rfl)
      · simp [Batch.calls, buildEntry]
      · simp [Batch.isSpeech, slot]
  · exact kept.pass rfl fun some => by cases some

theorem Kept.debounceWindow (kept : state.Kept) (message : Message) :
    (state.debounceWindow message).Kept := by
  unfold Debouncer.debounceWindow
  dsimp only
  split
  · next place batch found =>
      obtain ⟨there, shut⟩ := openSlot_some found
      obtain ⟨waiting, timeout, burst, slot⟩ :=
        (kept.formed batch (List.mem_of_getElem? there)).alive shut
      have joined : ∃ timeout burst, batch.absorb (buildEntry state.calls.length message) =
          { batch with
            entries := batch.entries ++ [buildEntry state.calls.length message]
            slot := .window (some timeout) false burst } := by
        rw [Batch.absorb, slot]
        exact ⟨_, _, rfl⟩
      obtain ⟨timeout, burst, joined⟩ := joined
      rw [joined]
      refine kept.join there ?_ rfl ⟨waiting, waiting⟩ ?_ (fun _ => ⟨timeout, burst, rfl⟩)
        (.inl rfl)
      · simp [Batch.calls, buildEntry]
      · simp [Batch.isSpeech, slot]
  · have opened := @Kept.own state (Batch.openWindow (buildEntry state.calls.length message))
      message kept rfl rfl (fun _ => ⟨rfl, _, _, rfl⟩) fun _ => .inl rfl
    exact opened.register opened.collecting

variable {casefold : Char → Text}

theorem Kept.single (kept : state.Kept) (message : Message) (epoch : Option Int) :
    (state.own (Batch.single (buildEntry state.calls.length message) epoch) message
      (.result (Batch.single (buildEntry state.calls.length message) epoch).result)).Kept :=
  @Kept.own state (Batch.single (buildEntry state.calls.length message) epoch) message kept rfl rfl
    (fun shut => by cases shut) fun _ => .inr rfl

/-- A slot of a collection may change while its owner waits. -/
theorem Kept.change (kept : state.Kept) (there : state.batches[place]? = some old) {slot : Slot}
    (waiting : old.stage = .waiting) (shut : ({ old with slot := slot } : Batch).isOpen = false)
    (kind : ({ old with slot := slot } : Batch).isSpeech = old.isSpeech) :
    (state.put place { old with slot := slot }).Kept := by
  have formed := kept.formed old (List.mem_of_getElem? there)
  refine kept.put there rfl rfl ?_ ⟨formed.ordered, formed.owned, ?_, fun _ => .inl waiting⟩
    fun gathers _ => ⟨waiting, kind.trans gathers.2⟩
  · simp [Batch.reply, waiting]
  · intro isOpen
    rw [shut] at isOpen
    cases isOpen

theorem Kept.collectInto (kept : state.Kept) (there : state.batches[place]? = some batch)
    (waiting : batch.stage = .waiting) (message : Message) (epoch : Option Int) :
    (state.collectInto casefold place batch message epoch).Kept := by
  unfold Debouncer.collectInto
  split
  · exact kept
  · next slot =>
      have kind : batch.isSpeech = true := by rw [Batch.isSpeech, slot]
      split
      · refine (kept.change there waiting ?_ ?_).pass rfl fun _ => rfl
        · rfl
        · exact kind.symm
      · split
        · refine (kept.change there waiting ?_ ?_).pass rfl fun _ => rfl
          · rfl
          · exact kind.symm
        · split
          · exact kept.pass rfl fun _ => rfl
          · refine kept.join there ?_ rfl ⟨waiting, waiting⟩ ?_ ?_ (.inl rfl)
            · simp [Batch.calls, buildEntry]
            · rw [kind]
              unfold Batch.isSpeech
              dsimp only
              split
              · next same => split at same <;> cases same
              · rfl
            · intro shut
              unfold Batch.isOpen at shut
              dsimp only at shut
              split at shut
              · next same => split at same <;> cases same
              · cases shut

theorem Kept.collectSpeechMessage (kept : state.Kept) (message : Message) (epoch : Option Int)
    (full : Bool) : (state.collectSpeechMessage casefold message epoch full).Kept := by
  unfold Debouncer.collectSpeechMessage
  dsimp only
  split
  · next place batch found =>
      obtain ⟨registered, speech, found⟩ := Option.bind_eq_some_iff.mp found
      obtain ⟨held, there, same⟩ := Option.map_eq_some_iff.mp found
      cases same
      obtain ⟨other, there', waiting, -⟩ := kept.collecting _ speech
      rw [there] at there'
      cases there'
      split
      · exact kept.collectInto there waiting message epoch
      · exact kept.single message epoch
  · split
    · exact kept.single message epoch
    · have opened := @Kept.own state
        (Batch.openCollection (buildEntry state.calls.length message) epoch)
        message kept rfl rfl (fun shut => by cases shut) fun _ => .inl rfl
      refine opened.register fun place speech => ?_
      cases speech
      exact ⟨_, List.getElem?_concat_length, rfl, rfl⟩

/-! ### Timers and owners -/

theorem Kept.atBatch (kept : state.Kept) {next : Batch → Debouncer}
    (keeps : ∀ batch, state.batches[place]? = some batch → (next batch).Kept) :
    (state.atBatch place next).Kept := by
  unfold Debouncer.atBatch
  split
  · next batch there => exact keeps batch there
  · exact kept

theorem Kept.timer (kept : state.Kept) (there : state.batches[place]? = some batch) :
    (state.timer place batch).Kept := by
  unfold Debouncer.timer
  split
  · next timeout burst slot =>
      have formed := kept.formed batch (List.mem_of_getElem? there)
      have shut : batch.isOpen = true := by rw [Batch.isOpen, slot]; rfl
      have kind : batch.isSpeech = false := by rw [Batch.isSpeech, slot]
      exact kept.change there (formed.alive shut).1 rfl kind.symm
  · exact kept

/-- A stage between the wait and the answer. -/
theorem Kept.stage (kept : state.Kept) (there : state.batches[place]? = some old)
    {entries : List Entry} (same : entries.map Entry.call = old.calls) {stage : Stage}
    (going : old.stage ≠ .returned ∧ stage ≠ .returned) (shut : old.isOpen = false)
    (kind : old.isSpeech = false) :
    (state.put place { old with entries := entries, stage := stage }).Kept := by
  have formed := kept.formed old (List.mem_of_getElem? there)
  refine kept.put there same rfl ?_ ⟨?_, ?_, ?_, ?_⟩ fun gathers _ => ?_
  · simp [Batch.reply, going.1, going.2]
  · have ordered := formed.ordered
    rw [← same] at ordered
    exact ordered
  · have owned := formed.owned
    rw [← same] at owned
    exact owned
  · intro isOpen
    have closed : ({ old with entries := entries, stage := stage } : Batch).isOpen = false := shut
    rw [closed] at isOpen
    cases isOpen
  · intro speech
    have same : ({ old with entries := entries, stage := stage } : Batch).isSpeech = false := kind
    rw [same] at speech
    cases speech
  · rw [gathers.2] at kind
    cases kind

theorem Kept.resume (kept : state.Kept) (there : state.batches[place]? = some batch) :
    (state.resume place batch).Kept := by
  unfold Debouncer.resume
  split
  · next timer burst slot stage =>
      exact kept.stage there rfl ⟨by simp [stage], by simp⟩ (by rw [Batch.isOpen, slot]; rfl)
        (by rw [Batch.isSpeech, slot])
  · exact kept

theorem resolve_calls (heard : Nat → Heard) (entries : List Entry) :
    (entries.map (Entry.resolve heard)).map Entry.call = entries.map Entry.call := by
  rw [List.map_map]
  refine List.map_congr_left fun entry _ => ?_
  simp only [Function.comp_apply, Entry.resolve]
  split
  · split <;> rfl
  · rfl

theorem Kept.settle (kept : state.Kept) (there : state.batches[place]? = some batch)
    (heard : Nat → Heard) : (state.settle place batch heard).Kept := by
  unfold Debouncer.settle
  split
  · next timer ready burst slot stage =>
      have shut := kept.shut there (by simp [stage])
      have kind : batch.isSpeech = false := by rw [Batch.isSpeech, slot]
      have settled := @Kept.stage state place batch kept there
        (batch.entries.map (Entry.resolve heard)) (resolve_calls heard batch.entries) .releasing
        ⟨by simp [stage], by simp⟩ shut kind
      exact settled.register settled.collecting
  · exact kept

theorem Kept.answerWindow (kept : state.Kept) (there : state.batches[place]? = some batch) :
    (state.answerWindow place batch).Kept := by
  unfold Debouncer.answerWindow
  split
  · next timer ready burst slot stage =>
      have shut := kept.shut there (by simp [stage])
      refine @Kept.answer state place batch { batch with stage := .returned } kept there rfl rfl
        rfl shut state.speechSlot fun other speech => ⟨?_, speech⟩
      rintro rfl
      obtain ⟨other, found, waiting, -⟩ := kept.collecting _ speech
      rw [there] at found
      cases found
      rw [stage] at waiting
      cases waiting
  · exact kept

theorem Kept.setEpoch (kept : state.Kept) (there : state.batches[place]? = some batch)
    (epoch : Option Int) : (state.setEpoch place batch epoch).Kept := by
  unfold Debouncer.setEpoch
  split
  · next slot stage =>
      exact kept.change there stage rfl (by rw [Batch.isSpeech, Batch.isSpeech, slot])
  · exact kept

theorem Kept.collected (kept : state.Kept) (there : state.batches[place]? = some batch)
    (error : Text) : (state.collected place batch error).Kept := by
  unfold Debouncer.collected
  split
  · next chatId epoch finished finishRequested retainedBytes held slot stage =>
      refine @Kept.answer state place batch { batch with
          stage := .returned
          slot := .speech chatId epoch finished finishRequested retainedBytes
            (if finished then held else error) } kept there rfl rfl rfl rfl _ ?_
      intro other speech
      unfold release at speech
      split at speech
      · cases speech
      · next elsewhere =>
          refine ⟨?_, speech⟩
          rintro rfl
          exact elsewhere speech
  · exact kept

theorem Kept.step (kept : state.Kept) (label : Label) : (state.step casefold label).Kept := by
  cases label with
  | debounce message => exact kept.debounceWindow message
  | speech message epoch full => exact kept.collectSpeechMessage message epoch full
  | inject message => exact kept.injectForwardedPhoto message
  | timer place => exact kept.atBatch fun batch there => kept.timer there
  | resume place => exact kept.atBatch fun batch there => kept.resume there
  | settle place heard => exact kept.atBatch fun batch there => kept.settle there heard
  | answer place => exact kept.atBatch fun batch there => kept.answerWindow there
  | epoch place epoch => exact kept.atBatch fun batch there => kept.setEpoch there epoch
  | collected place error => exact kept.atBatch fun batch there => kept.collected there error

theorem initial_kept : initial.Kept where
  once := by simp [initial]
  known := by simp [initial, placed]
  formed := by simp [initial]
  replies := by simp [initial]
  excused := by simp [initial]
  collecting := by simp [initial]

/-! ### The end of every slot -/

/-- What brings a slot to its end. -/
def finishing (place : Nat) : List Label :=
  [.timer place, .resume place, .settle place fun _ => .late, .answer place, .collected place []]

/-- A step at a place changes no other slot and adds no call. -/
structure Local (before after : Debouncer) (place : Nat) : Prop where
  calls : after.calls.length = before.calls.length
  slots : after.batches.length = before.batches.length
  others : ∀ other, other ≠ place → after.batches[other]? = before.batches[other]?

theorem Local.refl (state : Debouncer) (place : Nat) : state.Local state place :=
  ⟨rfl, rfl, fun _ _ => rfl⟩

theorem Local.trans {first second third : Debouncer} (one : first.Local second place)
    (two : second.Local third place) : first.Local third place :=
  ⟨two.calls.trans one.calls, two.slots.trans one.slots,
    fun other apart => (two.others other apart).trans (one.others other apart)⟩

theorem put_local (place : Nat) (batch : Batch) : state.Local (state.put place batch) place :=
  ⟨rfl, List.length_set, fun _ apart => List.getElem?_set_ne (Ne.symm apart)⟩

/-- The slot at a place satisfies a condition after steps at that place. -/
def Comes (before after : Debouncer) (place : Nat) (holds : Batch → Prop) : Prop :=
  before.Local after place ∧ ∃ batch, after.batches[place]? = some batch ∧ holds batch

variable {holds : Batch → Prop}

theorem Comes.put (there : state.batches[place]? = some old) (held : holds batch) :
    state.Comes (state.put place batch) place holds := by
  obtain ⟨inside, -⟩ := List.getElem?_eq_some_iff.mp there
  exact ⟨put_local place batch, batch, List.getElem?_set_self inside, held⟩

theorem Comes.stay (there : state.batches[place]? = some old) (held : holds old) :
    state.Comes state place holds :=
  ⟨Local.refl state place, old, there, held⟩

theorem Comes.answer (there : state.batches[place]? = some old) (held : holds batch) (told : Batch)
    (speech : Option Nat) :
    state.Comes { (state.put place batch).answer told with speechSlot := speech } place holds := by
  obtain ⟨inside, -⟩ := List.getElem?_eq_some_iff.mp there
  refine ⟨⟨?_, List.length_set, fun other apart => List.getElem?_set_ne (Ne.symm apart)⟩, batch,
    List.getElem?_set_self inside, held⟩
  simp [Debouncer.answer, Debouncer.put]

/-- A collection whose owner waits or has returned. -/
def Gathered (batch : Batch) : Prop :=
  batch.isSpeech = true ∧ (batch.stage = .waiting ∨ batch.stage = .returned)

theorem timer_comes (formed : old.Formed) (there : state.batches[place]? = some old) :
    state.Comes (state.step casefold (.timer place)) place fun batch =>
      Gathered batch ∨ batch.isSpeech = false ∧ batch.isOpen = false := by
  rw [Debouncer.step, Debouncer.atBatch, there]
  dsimp only
  unfold Debouncer.timer
  split
  · exact Comes.put there (.inr ⟨rfl, rfl⟩)
  · next shut =>
      refine Comes.stay there ?_
      cases speech : old.isSpeech with
      | true => exact .inl ⟨speech, formed.gathered speech⟩
      | false =>
        refine .inr ⟨rfl, ?_⟩
        cases alive : old.isOpen with
        | false => rfl
        | true =>
          obtain ⟨-, timeout, burst, slot⟩ := formed.alive alive
          exact absurd slot (shut timeout burst)

theorem resume_comes (there : state.batches[place]? = some old)
    (held : Gathered old ∨ old.isSpeech = false ∧ old.isOpen = false) :
    state.Comes (state.step casefold (.resume place)) place fun batch =>
      Gathered batch ∨ batch.isSpeech = false ∧ batch.stage ≠ .waiting := by
  rw [Debouncer.step, Debouncer.atBatch, there]
  dsimp only
  unfold Debouncer.resume
  split
  · next slot stage =>
      refine Comes.put there (.inr ⟨?_, by simp⟩)
      rw [Batch.isSpeech, slot]
  · next early =>
      refine Comes.stay there (held.imp id fun shut => ⟨shut.1, fun waiting => ?_⟩)
      cases slot : old.slot with
      | window timer ready burst =>
        cases ready with
        | true => exact early timer burst slot waiting
        | false =>
          have alive : old.isOpen = true := by rw [Batch.isOpen, slot]; rfl
          rw [shut.2] at alive
          cases alive
      | speech =>
        have speech : old.isSpeech = true := by rw [Batch.isSpeech, slot]
        rw [shut.1] at speech
        cases speech

theorem settle_comes (there : state.batches[place]? = some old) (heard : Nat → Heard)
    (held : Gathered old ∨ old.isSpeech = false ∧ old.stage ≠ .waiting) :
    state.Comes (state.step casefold (.settle place heard)) place fun batch =>
      Gathered batch ∨ batch.isSpeech = false ∧
        (batch.stage = .releasing ∨ batch.stage = .returned) := by
  rw [Debouncer.step, Debouncer.atBatch, there]
  dsimp only
  unfold Debouncer.settle
  split
  · next slot stage =>
      obtain ⟨inside, -⟩ := List.getElem?_eq_some_iff.mp there
      refine ⟨⟨rfl, List.length_set, fun other apart => List.getElem?_set_ne (Ne.symm apart)⟩, _,
        List.getElem?_set_self inside, .inr ⟨?_, .inl rfl⟩⟩
      rw [Batch.isSpeech, slot]
  · next early =>
      refine Comes.stay there (held.imp id fun later => ⟨later.1, ?_⟩)
      cases stage : old.stage with
      | waiting => exact absurd stage later.2
      | resolving =>
        cases slot : old.slot with
        | window timer ready burst => exact absurd stage (early timer ready burst slot)
        | speech =>
          have speech : old.isSpeech = true := by rw [Batch.isSpeech, slot]
          rw [later.1] at speech
          cases speech
      | releasing => exact .inl rfl
      | returned => exact .inr rfl

theorem answer_comes (there : state.batches[place]? = some old)
    (held : Gathered old ∨ old.isSpeech = false ∧
      (old.stage = .releasing ∨ old.stage = .returned)) :
    state.Comes (state.step casefold (.answer place)) place fun batch =>
      Gathered batch ∨ batch.stage = .returned := by
  rw [Debouncer.step, Debouncer.atBatch, there]
  dsimp only
  unfold Debouncer.answerWindow
  split
  · exact Comes.answer there (.inr rfl) old state.speechSlot
  · next early =>
      refine Comes.stay there (held.imp id fun late => ?_)
      rcases late.2 with releasing | returned
      · cases slot : old.slot with
        | window timer ready burst => exact absurd releasing (early timer ready burst slot)
        | speech =>
          have speech : old.isSpeech = true := by rw [Batch.isSpeech, slot]
          rw [late.1] at speech
          cases speech
      · exact returned

theorem collected_comes (there : state.batches[place]? = some old) (error : Text)
    (held : Gathered old ∨ old.stage = .returned) :
    state.Comes (state.step casefold (.collected place error)) place fun batch =>
      batch.stage = .returned := by
  rw [Debouncer.step, Debouncer.atBatch, there]
  dsimp only
  unfold Debouncer.collected
  split
  · exact @Comes.answer state place old _ (fun batch => batch.stage = .returned) there rfl _ _
  · next early =>
      refine Comes.stay there ?_
      rcases held with ⟨speech, waiting | returned⟩ | returned
      · cases slot : old.slot with
        | window => rw [Batch.isSpeech, slot] at speech; cases speech
        | speech => exact absurd waiting (early _ _ _ _ _ _ slot)
      · exact returned
      · exact returned

/-- After the finishing steps of a slot its owner has returned. -/
theorem Kept.finishes (kept : state.Kept) (there : state.batches[place]? = some old) :
    state.Comes (Run.run (Debouncer.step casefold) state (finishing place)) place fun batch =>
      batch.stage = .returned := by
  obtain ⟨first, one, here, held⟩ :=
    @timer_comes state place old casefold (kept.formed old (List.mem_of_getElem? there)) there
  obtain ⟨second, two, here, held⟩ := @resume_comes _ place one casefold here held
  obtain ⟨third, three, here, held⟩ := @settle_comes _ place two casefold here (fun _ => .late) held
  obtain ⟨fourth, four, here, held⟩ := @answer_comes _ place three casefold here held
  obtain ⟨fifth, five, here, held⟩ := @collected_comes _ place four casefold here [] held
  exact ⟨((((first.trans second).trans third).trans fourth).trans fifth), five, here, held⟩

/-- From every state timers and owners bring every slot to its end. -/
theorem Kept.all_return (kept : state.Kept) : ∃ more,
    (Run.run (Debouncer.step casefold) state more).calls.length = state.calls.length ∧
      ∀ batch ∈ (Run.run (Debouncer.step casefold) state more).batches,
        batch.stage = .returned := by
  have upTo : ∀ count, count ≤ state.batches.length → ∃ more,
      (Run.run (Debouncer.step casefold) state more).calls.length = state.calls.length ∧
      (Run.run (Debouncer.step casefold) state more).batches.length = state.batches.length ∧
      ∀ place < count, ∃ batch,
        (Run.run (Debouncer.step casefold) state more).batches[place]? = some batch ∧
          batch.stage = .returned := by
    intro count
    induction count with
    | zero => exact fun _ => ⟨[], rfl, rfl, fun place less => absurd less (Nat.not_lt_zero _)⟩
    | succ count ih =>
      intro within
      obtain ⟨more, calls, slots, ended⟩ := ih (by omega)
      have later : (Run.run (Debouncer.step casefold) state more).Kept :=
        Run.run_keeps Kept (fun _ label kept => kept.step label) kept more
      have there := List.getElem?_eq_getElem
        (show count < (Run.run (Debouncer.step casefold) state more).batches.length by omega)
      obtain ⟨around, batch, here, returned⟩ := @Kept.finishes _ count _ casefold later there
      refine ⟨more ++ finishing count, ?_, ?_, ?_⟩
      · rw [Run.run_append]
        exact around.calls.trans calls
      · rw [Run.run_append]
        exact around.slots.trans slots
      · intro place less
        rw [Run.run_append]
        by_cases last : place = count
        · subst last
          exact ⟨batch, here, returned⟩
        · obtain ⟨earlier, stands, ended⟩ := ended place (by omega)
          exact ⟨earlier, (around.others place last).trans stands, ended⟩
  obtain ⟨more, calls, slots, ended⟩ := upTo state.batches.length (Nat.le_refl _)
  refine ⟨more, calls, fun batch member => ?_⟩
  obtain ⟨place, there⟩ := List.mem_iff_getElem?.mp member
  obtain ⟨inside, -⟩ := List.getElem?_eq_some_iff.mp there
  obtain ⟨other, stands, returned⟩ := ended place (by omega)
  rw [there] at stands
  cases stands
  exact returned

end Debouncer

/-! ## Runs -/

variable (casefold : Char → Text)

/-- The state after a run. -/
def after (labels : List Debouncer.Label) : Debouncer :=
  Run.run (Debouncer.step casefold) Debouncer.initial labels

theorem after_kept (labels : List Debouncer.Label) : (after casefold labels).Kept :=
  Run.run_keeps Debouncer.Kept (fun _ label kept => kept.step label) Debouncer.initial_kept labels

/-- What the calls of a state have been told. -/
structure NothingLost (casefold : Char → Text) (state : Debouncer) : Prop where
  /-- A message that is not left out stands once in all slots, and one that is in none. -/
  once : ∀ number call, state.calls[number]? = some call →
    (placed state.batches).count number = if call.left then 0 else 1
  /-- A call is left out if its photo was refused, or if a collection of speech took its
  message for another purpose. -/
  left : ∀ call ∈ state.calls, call.left = true →
    call.reply = .injected false ∨ call.reply = .absorbed ∧ call.excuse.isSome = true
  /-- The entries of a slot are in the order of arrival. -/
  ordered : ∀ batch ∈ state.batches, batch.calls.Pairwise (· < ·)
  /-- A slot has one caller that receives its result, and the others receive none. -/
  answered : ∀ batch ∈ state.batches, batch.owner ∈ batch.calls ∧
    ∀ number ∈ batch.calls, ∀ call, state.calls[number]? = some call →
      batch.Answers number call.reply
  /-- Every result is that of one slot. -/
  results : ∀ number call result, state.calls[number]? = some call → call.reply = .result result →
    ∃ batch ∈ state.batches, batch.owner = number ∧ batch.stage = .returned ∧ batch.result = result
  /-- Timers and owners alone can bring every slot to its result. -/
  ends : ∃ more, (Run.run (Debouncer.step casefold) state more).calls.length = state.calls.length ∧
    ∀ batch ∈ (Run.run (Debouncer.step casefold) state more).batches, batch.stage = .returned

/-- After every run no message is lost. -/
theorem debounce_loses_nothing (labels : List Debouncer.Label) :
    NothingLost casefold (after casefold labels) := by
  have kept := after_kept casefold labels
  refine ⟨kept.once, ?_, fun batch member => (kept.formed batch member).ordered, ?_, ?_,
    kept.all_return⟩
  · intro call member left
    rw [Call.left, Bool.or_eq_true] at left
    rcases left with excused | refused
    · exact .inr ⟨kept.excused call member excused, excused⟩
    · exact .inl (of_decide_eq_true refused)
  · exact fun batch member => ⟨(kept.formed batch member).owned, kept.replies batch member⟩
  · intro number call result found told
    have left : call.left = false := by
      rw [Call.left, Bool.or_eq_false_iff]
      constructor
      · cases excused : call.excuse.isSome with
        | false => rfl
        | true =>
          have absorbed := kept.excused call (List.mem_of_getElem? found) excused
          rw [told] at absorbed
          cases absorbed
      · rw [told]
        rfl
    have count := kept.once number call found
    rw [left, if_neg (by simp)] at count
    obtain ⟨batch, member, stands⟩ := List.mem_flatMap.mp
      (List.count_pos_iff.mp (Nat.lt_of_lt_of_eq Nat.one_pos count.symm))
    have answers := kept.replies batch member number stands call found
    unfold Batch.Answers Batch.reply at answers
    rw [told] at answers
    refine ⟨batch, member, ?_⟩
    split at answers
    · next same =>
        split at answers
        · next returned =>
            refine ⟨same.symm, returned, ?_⟩
            cases answers
            rfl
        · cases answers
    · rcases answers with none | none <;> cases none

/-! ## A word of confirmation -/

def longSource : Message := ⟨1, 7, List.replicate 2049 'т', false, false⟩

def doneWord : Message := ⟨2, 7, "done".toList, false, false⟩

/-- A collection is opened, confirmed and returned. -/
def confirmedRun : List Debouncer.Label :=
  [.speech longSource none false, .speech doneWord none false, .collected 0 []]

/-- The confirming message was taken and stands in no result. -/
theorem confirmation_in_no_result :
    (after (fun c => [c]) confirmedRun).calls[1]?.map (fun call => (call.message, call.reply)) =
        some (doneWord, .absorbed) ∧
      ∀ call ∈ (after (fun c => [c]) confirmedRun).calls, ∀ result, call.reply = .result result →
        ∀ entry ∈ result.entries, entry.call ≠ 1 := by
  have calls : (after (fun c => [c]) confirmedRun).calls.map (fun call => call.reply) =
      [.result ⟨[buildEntry 0 longSource], true, none, []⟩, .absorbed] := by rfl
  refine ⟨by rfl, ?_⟩
  intro call member result told entry inside
  have listed : Reply.result result ∈
      [Reply.result ⟨[buildEntry 0 longSource], true, none, []⟩, .absorbed] := by
    rw [← calls, ← told]
    exact List.mem_map_of_mem member
  rcases List.mem_cons.mp listed with first | second
  · cases first
    rw [List.mem_singleton.mp inside]
    exact Nat.zero_ne_one
  · cases List.mem_singleton.mp second

end BobbyBotique.Debounce
