import BobbyBotique.Games.MutationLock

/-!
# One mutation at a time

Each lock admits one coroutine of its own, over every run.  Two coroutines are
inside together exactly when one got in by one lock while another was inside by
the other, which happens where an acquisition raises and another succeeds.
-/

namespace BobbyBotique.Games

open Run

namespace Section

variable {state : Section} {label : Label} {guard : Guard} {one two : Acquisition}

theorem phase_move (state : Section) (one other : Acquisition) (phase : Phase) :
    (state.move one phase).phase other = if other = one then phase else state.phase other := by
  simp only [Section.phase, move, Dict.getD, Dict.get?_set]
  split
  · rfl
  · rfl

/-- A move puts nobody inside but the acquisition that moves. -/
theorem inside_of_move {p : Phase} (inside : (state.move one p).Inside guard two) :
    two = one ∧ p.within guard = true ∨ two ≠ one ∧ state.Inside guard two := by
  rw [Inside, phase_move] at inside
  by_cases same : two = one
  · rw [if_pos same] at inside
    exact .inl ⟨same, inside⟩
  · rw [if_neg same] at inside
    exact .inr ⟨same, inside⟩

/-- A move from inside to inside by the same lock, or out of the section. -/
theorem inside_of_move_within {p : Phase}
    (within : p.within guard = true → (state.phase one).within guard = true)
    (inside : (state.move one p).Inside guard two) : state.Inside guard two := by
  rcases inside_of_move inside with ⟨rfl, entered⟩ | ⟨-, before⟩
  · exact within entered
  · exact before

theorem inside_of_leave {lock : Guard} (inside : (state.leave one lock).Inside guard two) :
    two ≠ one ∧ state.Inside guard two := by
  cases lock with
  | redis =>
    rcases inside_of_move (p := .releasing) inside with ⟨-, entered⟩ | kept
    · cases entered
    · exact kept
  | process =>
    rcases inside_of_move (p := .gone) inside with ⟨-, entered⟩ | kept
    · cases entered
    · exact kept

theorem inside_of_turn {lock : Guard} {cancellation joined : Bool} {wakeup : Wakeup}
    (found : state.phase one = .inside lock (.joining joined))
    (inside : (state.turn one lock cancellation wakeup).Inside guard two) :
    state.Inside guard two := by
  unfold turn at inside
  split at inside
  · exact inside
  · exact inside_of_move_within (fun same => found ▸ same) inside

theorem inside_of_enterLocal (inside : (state.enterLocal one).Inside guard two) :
    state.Inside guard two ∨
      guard = .process ∧ two = one ∧ state.locked = false ∧ state.waiters = [] := by
  unfold enterLocal at inside
  split at inside
  · next free =>
      obtain ⟨unlocked, alone⟩ := Bool.and_eq_true_iff.mp free
      rcases inside_of_move (p := .inside .process (.working none)) inside with
        ⟨same, entered⟩ | ⟨-, before⟩
      · right
        exact ⟨(of_decide_eq_true entered).symm, same, Bool.not_eq_true' _ |>.mp unlocked,
          List.isEmpty_iff.mp alone⟩
      · exact .inl before
  · exact .inl (inside_of_move_within (p := .waiting) (fun entered => nomatch entered) inside)

theorem inside_of_cancel (inside : (state.cancel one).Inside guard two) :
    state.Inside guard two := by
  unfold cancel at inside
  split at inside
  · exact inside_of_move_within (p := .gone) (fun entered => nomatch entered) inside
  · exact inside_of_move_within (p := .gone) (fun entered => nomatch entered) inside
  · exact (inside_of_leave inside).2
  · next lock cancellation found => exact inside_of_turn found inside
  · exact inside_of_move_within (p := .gone) (fun entered => nomatch entered) inside
  · exact inside

/-- Who is inside after a step was inside before it, or the step lets it in. -/
theorem inside_of_step (inside : (state.step label).Inside guard two) :
    state.Inside guard two ∨ state.Enters label guard two := by
  cases label with
  | call one =>
    simp only [step] at inside
    split at inside
    · next outside =>
        split at inside
        · exact .inl (inside_of_move_within (p := .acquiring) (fun entered => nomatch entered)
            inside)
        · next absent =>
            rcases inside_of_enterLocal inside with before | ⟨rfl, rfl, free, alone⟩
            · exact .inl before
            · exact .inr ⟨free, .inl ⟨alone, .inl ⟨rfl, outside, Bool.not_eq_true _ |>.mp absent⟩⟩⟩
    · exact .inl inside
  | attempt one =>
    simp only [step] at inside
    split at inside
    · exact .inl inside
    · exact .inl inside
  | grant one =>
    simp only [step] at inside
    split at inside
    · next held =>
        rcases inside_of_move inside with ⟨rfl, entered⟩ | ⟨-, before⟩
        · cases of_decide_eq_true entered
          exact .inr ⟨rfl, held⟩
        · exact .inl before
    · exact .inl inside
  | refuse one =>
    simp only [step] at inside
    split at inside
    · exact .inl (inside_of_move_within (p := .gone) (fun entered => nomatch entered) inside)
    · exact .inl inside
  | fail one =>
    simp only [step] at inside
    split at inside
    · next acquiring =>
        rcases inside_of_enterLocal inside with before | ⟨rfl, rfl, free, alone⟩
        · exact .inl before
        · exact .inr ⟨free, .inl ⟨alone, .inr ⟨rfl, acquiring⟩⟩⟩
    · exact .inl inside
  | wake =>
    simp only [step] at inside
    split at inside
    · exact .inl inside
    · next one rest queue =>
        split at inside
        · exact .inl inside
        · next free =>
            rcases inside_of_move (p := .inside .process (.working none)) inside with
              ⟨rfl, entered⟩ | ⟨-, before⟩
            · cases of_decide_eq_true entered
              exact .inr ⟨Bool.not_eq_true _ |>.mp free, .inr ⟨rfl, congrArg List.head? queue⟩⟩
            · exact .inl before
  | cancel one => exact .inl (inside_of_cancel inside)
  | start one =>
    simp only [step] at inside
    split at inside
    · next lock last found =>
        exact .inl (inside_of_move_within (p := .inside lock (.joining false))
          (fun same => found ▸ same) inside)
    · exact .inl inside
  | settle one ending =>
    simp only [step] at inside
    split at inside
    · exact .inl inside
    · exact .inl inside
  | resume one =>
    simp only [step] at inside
    split at inside
    · next lock cancellation found =>
        split at inside
        · exact .inl inside
        · exact .inl (inside_of_turn found inside)
    · exact .inl inside
  | leave one =>
    simp only [step] at inside
    split at inside
    · exact .inl (inside_of_leave inside).2
    · exact .inl inside
  | release one =>
    simp only [step] at inside
    split at inside
    · exact .inl inside
    · exact .inl inside
  | finish one =>
    simp only [step] at inside
    split at inside
    · exact .inl (inside_of_move_within (p := .gone) (fun entered => nomatch entered) inside)
    · exact .inl inside
  | take | drop =>
    simp only [step] at inside
    split at inside
    · exact .inl inside
    · exact .inl inside
  | expire => exact .inl inside

/-- The acquisition that a step lets in was not inside. -/
theorem outside_of_enters (queued : ∀ two ∈ state.waiters, state.phase two = .waiting)
    (enters : state.Enters label guard one) : ∀ lock, ¬ state.Inside lock one := by
  intro lock inside
  have phase : state.phase one = .outside ∨ state.phase one = .acquiring ∨
      state.phase one = .waiting := by
    cases guard with
    | redis => exact .inr (.inl enters.2.1)
    | process =>
      obtain ⟨-, ⟨-, ⟨-, outside, -⟩ | ⟨-, acquiring⟩⟩ | ⟨-, head⟩⟩ := enters
      · exact .inl outside
      · exact .inr (.inl acquiring)
      · exact .inr (.inr (queued one (List.mem_of_head? head)))
  rw [Inside] at inside
  rcases phase with outside | acquiring | waiting
  · rw [outside] at inside
    cases inside
  · rw [acquiring] at inside
    cases inside
  · rw [waiting] at inside
    cases inside

theorem inside_move_self {p : Phase} (within : p.within guard = true) :
    (state.move one p).Inside guard one := by
  rw [Inside, phase_move, if_pos rfl]
  exact within

theorem inside_move_ne {phase : Phase} (ne : two ≠ one) (inside : state.Inside guard two) :
    (state.move one phase).Inside guard two := by
  rw [Inside, phase_move, if_neg ne]
  exact inside

/-- A step that lets an acquisition in moves nobody else. -/
theorem step_of_enters (enters : state.Enters label guard one) :
    (state.step label).Inside guard one ∧
      ∀ lock, two ≠ one → state.Inside lock two → (state.step label).Inside lock two := by
  cases guard with
  | redis =>
    obtain ⟨rfl, acquiring, held⟩ := enters
    simp only [step, acquiring, held, and_self, if_true]
    exact ⟨inside_move_self rfl, fun lock ne => inside_move_ne ne⟩
  | process =>
    obtain ⟨free, ⟨alone, ⟨rfl, outside, absent⟩ | ⟨rfl, acquiring⟩⟩ | ⟨rfl, head⟩⟩ := enters
    · simp only [step, outside, absent, enterLocal, free, alone, if_true, Bool.not_false,
        List.isEmpty_nil, Bool.and_self, Bool.false_eq_true, if_false]
      exact ⟨inside_move_self (p := .inside .process (.working none)) rfl,
        fun lock ne => inside_move_ne ne⟩
    · simp only [step, acquiring, enterLocal, free, alone, if_true, Bool.not_false,
        List.isEmpty_nil, Bool.and_self]
      exact ⟨inside_move_self (p := .inside .process (.working none)) rfl,
        fun lock ne => inside_move_ne ne⟩
    · obtain ⟨rest, queue⟩ := List.head?_eq_some_iff.mp head
      simp only [step, queue, free, Bool.false_eq_true, if_false]
      exact ⟨inside_move_self (p := .inside .process (.working none)) rfl,
        fun lock ne => inside_move_ne ne⟩

theorem occupied_iff (state : Section) (guard : Guard) :
    state.occupied guard = true ↔ ∃ one, state.Inside guard one := by
  rw [occupied, List.any_eq_true]
  constructor
  · rintro ⟨phase, stored, within⟩
    obtain ⟨one, found⟩ := (state.phases.mem_values_iff phase).mp stored
    refine ⟨one, ?_⟩
    rw [Inside, Section.phase, Dict.getD, found]
    exact within
  · rintro ⟨one, inside⟩
    rw [Inside, phase, Dict.getD] at inside
    cases found : state.phases.get? one with
    | none =>
      rw [found] at inside
      cases inside
    | some phase =>
      rw [found] at inside
      exact ⟨phase, (state.phases.mem_values_iff phase).mpr ⟨one, found⟩, inside⟩

/-! ## What every run keeps -/

/-- Each lock is in the hands of the one coroutine inside by it, the queue of
the process lock holds waiting coroutines once each, and a running task belongs
to a coroutine that joins it inside. -/
structure Kept (state : Section) : Prop where
  keyed : ∀ one, state.Inside .redis one → state.key = some (.here one)
  locked : ∀ one, state.Inside .process one → state.locked = true
  single : ∀ one two, state.Inside .process one → state.Inside .process two → one = two
  queued : ∀ one ∈ state.waiters, state.phase one = .waiting
  once : state.waiters.Nodup
  joined : ∀ one, state.tasks.get? one = some .running →
    ∃ guard cancellation, state.phase one = .inside guard (.joining cancellation)

theorem leave_key (state : Section) (one : Acquisition) (lock : Guard) :
    (state.leave one lock).key = state.key ∧ (state.leave one lock).waiters = state.waiters ∧
      (state.leave one lock).tasks = state.tasks := by
  cases lock with
  | redis | process => exact ⟨rfl, rfl, rfl⟩

theorem turn_key (state : Section) (one : Acquisition) (lock : Guard) (cancellation : Bool)
    (wakeup : Wakeup) :
    (state.turn one lock cancellation wakeup).key = state.key ∧
      (state.turn one lock cancellation wakeup).locked = state.locked ∧
      (state.turn one lock cancellation wakeup).waiters = state.waiters ∧
      (state.turn one lock cancellation wakeup).tasks = state.tasks := by
  unfold turn
  split
  · exact ⟨rfl, rfl, rfl, rfl⟩
  · exact ⟨rfl, rfl, rfl, rfl⟩

theorem enterLocal_key (state : Section) (one : Acquisition) :
    (state.enterLocal one).key = state.key ∧ (state.enterLocal one).tasks = state.tasks := by
  unfold enterLocal
  split
  · exact ⟨rfl, rfl⟩
  · exact ⟨rfl, rfl⟩

theorem cancel_key (state : Section) (one : Acquisition) :
    (state.cancel one).key = state.key ∧ (state.cancel one).tasks = state.tasks := by
  unfold cancel
  split
  · exact ⟨rfl, rfl⟩
  · exact ⟨rfl, rfl⟩
  · exact ⟨(leave_key _ _ _).1, (leave_key _ _ _).2.2⟩
  · exact ⟨(turn_key _ _ _ _ _).1, (turn_key _ _ _ _ _).2.2.2⟩
  · exact ⟨rfl, rfl⟩
  · exact ⟨rfl, rfl⟩

/-- The lock key stays with a coroutine that is inside by it. -/
theorem step_key (permitted : state.Permitted label) (inside : state.Inside .redis one)
    (held : state.key = some (.here one)) : (state.step label).key = some (.here one) := by
  cases label with
  | call two =>
    simp only [step]
    split
    · split
      · exact held
      · exact (enterLocal_key state two).1.trans held
    · exact held
  | attempt two =>
    simp only [step, held, reduceCtorEq, and_false, if_false]
  | grant two | refuse two =>
    simp only [step]
    split
    · exact held
    · exact held
  | fail two =>
    simp only [step]
    split
    · exact (enterLocal_key state two).1.trans held
    · exact held
  | wake =>
    simp only [step]
    split
    · exact held
    · split
      · exact held
      · exact held
  | cancel two => exact (cancel_key state two).1.trans held
  | start two | settle two ending =>
    simp only [step]
    split
    · exact held
    · exact held
  | resume two =>
    simp only [step]
    split
    · split
      · exact held
      · exact (turn_key _ _ _ _ _).1.trans held
    · exact held
  | leave two =>
    simp only [step]
    split
    · exact (leave_key _ _ _).1.trans held
    · exact held
  | release two =>
    simp only [step]
    split
    · next sent =>
        -- the owner is inside, so it has not sent its release
        cases held.symm.trans sent.2
        rw [Inside] at inside
        rcases sent.1 with releasing | gone
        · rw [releasing] at inside
          cases inside
        · rw [gone] at inside
          cases inside
    · exact held
  | finish two =>
    simp only [step]
    split
    · exact held
    · exact held
  | take => simp only [step, held, reduceCtorEq, if_false]
  | drop => simp only [step, held, Option.some.injEq, reduceCtorEq, if_false]
  | expire =>
    simp only [Permitted, held] at permitted
    cases permitted.2.symm.trans inside

theorem leave_locked {lock : Guard} (kept : state.Kept) (leaving : state.Inside lock two)
    (inside : (state.leave two lock).Inside .process one) : (state.leave two lock).locked = true := by
  obtain ⟨ne, before⟩ := inside_of_leave inside
  cases lock with
  | redis => exact kept.locked one before
  | process => exact absurd (kept.single one two before leaving) ne

/-- The steps by what they change besides the lock key. -/
inductive Change (state : Section) : Section → Prop where
  | key (key : Option Owner) : Change state { state with key := key }
  | settle (one : Acquisition) (ending : Ending) :
      Change state { state with tasks := state.tasks.set one (.done ending) }
  | move (one : Acquisition) (phase : Phase)
      (source : state.phase one = .outside ∨ state.phase one = .acquiring ∨
        state.phase one = .releasing) : Change state (state.move one phase)
  | enter (one : Acquisition)
      (source : state.phase one = .outside ∨ state.phase one = .acquiring) :
      Change state (state.enterLocal one)
  | wake (one : Acquisition) (rest : List Acquisition) (queue : state.waiters = one :: rest) :
      Change state { state.move one (.inside .process (.working none)) with
        locked := true, waiters := rest }
  | unqueue (one : Acquisition) (source : state.phase one = .waiting) :
      Change state { state.move one .gone with waiters := state.waiters.erase one }
  | start (one : Acquisition) (guard : Guard) (last : Option Ending)
      (source : state.phase one = .inside guard (.working last)) :
      Change state { state.move one (.inside guard (.joining false)) with
        tasks := state.tasks.set one .running }
  | turn (one : Acquisition) (guard : Guard) (cancellation : Bool) (wakeup : Wakeup)
      (source : state.phase one = .inside guard (.joining cancellation)) :
      Change state (state.turn one guard cancellation wakeup)
  | leave (one : Acquisition) (guard : Guard) (last : Option Ending)
      (source : state.phase one = .inside guard (.working last)) :
      Change state (state.leave one guard)

theorem cancel_change (state : Section) (one : Acquisition) :
    Change state (state.cancel one) := by
  unfold cancel
  split
  · next source => exact .move one .gone (.inr (.inl source))
  · next source => exact .unqueue one source
  · next guard last source => exact .leave one guard last source
  · next guard cancellation source => exact .turn one guard cancellation .cancelled source
  · next source => exact .move one .gone (.inr (.inr source))
  · exact .key state.key

theorem step_change (state : Section) (label : Label) : Change state (state.step label) := by
  have idle : Change state state := .key state.key
  cases label with
  | call one =>
    simp only [step]
    split
    · next outside =>
        split
        · exact .move one .acquiring (.inl outside)
        · exact .enter one (.inl outside)
    · exact idle
  | attempt one =>
    simp only [step]
    split
    · exact .key _
    · exact idle
  | grant one =>
    simp only [step]
    split
    · next held => exact .move one _ (.inr (.inl held.1))
    · exact idle
  | refuse one =>
    simp only [step]
    split
    · next source => exact .move one .gone (.inr (.inl source))
    · exact idle
  | fail one =>
    simp only [step]
    split
    · next source => exact .enter one (.inr source)
    · exact idle
  | wake =>
    simp only [step]
    split
    · exact idle
    · next one rest queue =>
        split
        · exact idle
        · exact .wake one rest queue
  | cancel one => exact cancel_change state one
  | start one =>
    simp only [step]
    split
    · next guard last source => exact .start one guard last source
    · exact idle
  | settle one ending =>
    simp only [step]
    split
    · exact .settle one ending
    · exact idle
  | resume one =>
    simp only [step]
    split
    · next guard cancellation source =>
        split
        · exact idle
        · exact .turn one guard cancellation .settled source
    · exact idle
  | leave one =>
    simp only [step]
    split
    · next guard last source => exact .leave one guard last source
    · exact idle
  | release one =>
    simp only [step]
    split
    · exact .key none
    · exact idle
  | finish one =>
    simp only [step]
    split
    · next source => exact .move one .gone (.inr (.inr source))
    · exact idle
  | take =>
    simp only [step]
    split
    · exact .key _
    · exact idle
  | drop =>
    simp only [step]
    split
    · exact .key none
    · exact idle
  | expire => exact .key none

/-- The process lock stays locked while a coroutine is inside by it. -/
theorem Change.locked {next : Section} (change : Change state next) (kept : state.Kept)
    (before : state.Inside .process one) (inside : next.Inside .process one) :
    next.locked = true := by
  have held := kept.locked one before
  cases change with
  | enter two source =>
    unfold enterLocal
    split
    · rfl
    · exact held
  | turn two guard cancellation wakeup source => exact (turn_key _ _ _ _ _).2.1.trans held
  | leave two guard last source =>
    have leaving : state.Inside guard two := by
      rw [Inside, source]
      exact decide_eq_true rfl
    exact leave_locked kept leaving inside
  | wake two rest queue => rfl
  | key | settle | move | unqueue | start => exact held

/-- A move of an acquisition that is not waiting leaves the queue waiting. -/
theorem queued_of_move (kept : state.Kept) (source : state.phase one ≠ .waiting) (phase : Phase) :
    ∀ two ∈ state.waiters, (state.move one phase).phase two = .waiting := by
  intro two member
  have waiting := kept.queued two member
  have ne : two ≠ one := by
    rintro rfl
    exact source waiting
  exact (phase_move state one two phase).trans ((if_neg ne).trans waiting)

theorem Change.queued {next : Section} (change : Change state next) (kept : state.Kept) :
    next.waiters.Nodup ∧ ∀ two ∈ next.waiters, next.phase two = .waiting := by
  have inside {one : Acquisition} {guard : Guard} {body : Body}
      (source : state.phase one = .inside guard body) : state.phase one ≠ .waiting := by
    rw [source]
    exact Phase.noConfusion
  cases change with
  | key | settle => exact ⟨kept.once, kept.queued⟩
  | move one phase source =>
    refine ⟨kept.once, queued_of_move kept ?_ phase⟩
    rcases source with source | source | source
    · rw [source]
      exact Phase.noConfusion
    · rw [source]
      exact Phase.noConfusion
    · rw [source]
      exact Phase.noConfusion
  | enter one source =>
    have apart : state.phase one ≠ .waiting := by
      rcases source with source | source
      · rw [source]
        exact Phase.noConfusion
      · rw [source]
        exact Phase.noConfusion
    unfold enterLocal
    split
    · exact ⟨kept.once, queued_of_move kept apart _⟩
    · constructor
      · apply List.nodup_append.mpr
        refine ⟨kept.once, List.nodup_singleton one, ?_⟩
        rintro two member other last rfl
        rw [List.mem_singleton.mp last] at member
        exact apart (kept.queued one member)
      · intro two member
        rcases List.mem_append.mp member with earlier | last
        · exact queued_of_move kept apart .waiting two earlier
        · rw [List.mem_singleton.mp last]
          exact (phase_move state one one .waiting).trans (if_pos rfl)
  | wake one rest queue =>
    have once := kept.once
    rw [queue] at once
    obtain ⟨absent, distinct⟩ := List.nodup_cons.mp once
    refine ⟨distinct, fun two member => ?_⟩
    have waiting := kept.queued two (queue ▸ List.mem_cons_of_mem one member)
    have ne : two ≠ one := by
      rintro rfl
      exact absent member
    exact (phase_move state one two _).trans ((if_neg ne).trans waiting)
  | unqueue one source =>
    refine ⟨kept.once.erase one, fun two member => ?_⟩
    obtain ⟨ne, listed⟩ := (List.Nodup.mem_erase_iff kept.once).mp member
    exact ((phase_move state one two _).trans (if_neg ne)).trans (kept.queued two listed)
  | start one guard last source => exact ⟨kept.once, queued_of_move kept (inside source) _⟩
  | turn one guard cancellation wakeup source =>
    unfold Section.turn
    split
    · exact ⟨kept.once, kept.queued⟩
    · exact ⟨kept.once, queued_of_move kept (inside source) _⟩
  | leave one guard last source =>
    cases guard with
    | redis | process => exact ⟨kept.once, queued_of_move kept (inside source) _⟩

/-- A move of an acquisition that joins nothing leaves every join as it is. -/
theorem joined_of_move (kept : state.Kept)
    (source : ∀ guard cancellation, state.phase one ≠ .inside guard (.joining cancellation))
    (phase : Phase) (two : Acquisition) (running : state.tasks.get? two = some .running) :
    ∃ guard cancellation, (state.move one phase).phase two =
      .inside guard (.joining cancellation) := by
  obtain ⟨guard, cancellation, found⟩ := kept.joined two running
  have ne : two ≠ one := by
    rintro rfl
    exact source guard cancellation found
  exact ⟨guard, cancellation, (phase_move state one two phase).trans ((if_neg ne).trans found)⟩

theorem Change.joined {next : Section} (change : Change state next) (kept : state.Kept)
    (two : Acquisition) (running : next.tasks.get? two = some .running) :
    ∃ guard cancellation, next.phase two = .inside guard (.joining cancellation) := by
  have other {one : Acquisition} {phase : Phase} (source : state.phase one = phase)
      (ne : ∀ guard cancellation, phase ≠ .inside guard (.joining cancellation)) :
      ∀ guard cancellation, state.phase one ≠ .inside guard (.joining cancellation) :=
    fun guard cancellation found => ne guard cancellation (source.symm.trans found)
  cases change with
  | key => exact kept.joined two running
  | settle one ending =>
    have before : state.tasks.get? two = some .running := by
      have stored : (state.tasks.set one (.done ending)).get? two = some .running := running
      rw [Dict.get?_set] at stored
      split at stored
      · cases stored
      · exact stored
    exact kept.joined two before
  | move one phase source =>
    rcases source with source | source | source
    · exact joined_of_move kept (other source (by rintro _ _ ⟨⟩)) phase two running
    · exact joined_of_move kept (other source (by rintro _ _ ⟨⟩)) phase two running
    · exact joined_of_move kept (other source (by rintro _ _ ⟨⟩)) phase two running
  | enter one source =>
    rw [(enterLocal_key state one).2] at running
    have apart : ∀ guard cancellation,
        state.phase one ≠ .inside guard (.joining cancellation) := by
      rcases source with source | source
      · exact other source (by rintro _ _ ⟨⟩)
      · exact other source (by rintro _ _ ⟨⟩)
    unfold enterLocal
    split
    · exact joined_of_move kept apart _ two running
    · exact joined_of_move kept apart _ two running
  | wake one rest queue =>
    have waiting := kept.queued one (queue ▸ List.mem_cons_self)
    exact joined_of_move kept (other waiting (by rintro _ _ ⟨⟩)) _ two running
  | unqueue one source => exact joined_of_move kept (other source (by rintro _ _ ⟨⟩)) _ two running
  | start one guard last source =>
    by_cases same : two = one
    · exact ⟨guard, false, (phase_move state one two _).trans (if_pos same)⟩
    · have before : state.tasks.get? two = some .running :=
        (Dict.get?_set_ne state.tasks .running same).symm.trans running
      exact joined_of_move kept (other source (by rintro _ _ ⟨⟩)) _ two before
  | turn one guard cancellation wakeup source =>
    rw [(turn_key _ _ _ _ _).2.2.2] at running
    unfold Section.turn
    split
    · exact kept.joined two running
    · next task found =>
        by_cases same : two = one
        · -- the loop goes on exactly while the task runs
          rw [same] at running
          cases found.symm.trans running
          exact ⟨guard, _, (phase_move state one two _).trans (if_pos same)⟩
        · obtain ⟨lock, joined, stays⟩ := kept.joined two running
          exact ⟨lock, joined, ((phase_move state one two _).trans (if_neg same)).trans stays⟩
  | leave one guard last source =>
    rw [(leave_key _ _ _).2.2] at running
    cases guard with
    | redis | process => exact joined_of_move kept (other source (by rintro _ _ ⟨⟩)) _ two running

theorem step_kept (kept : state.Kept) (permitted : state.Permitted label) :
    (state.step label).Kept := by
  have change := step_change state label
  have queued := change.queued kept
  have locked : ∀ one, (state.step label).Inside .process one →
      (state.step label).locked = true := by
    intro one inside
    rcases inside_of_step inside with before | enters
    · exact change.locked kept before inside
    · obtain ⟨free, ⟨alone, ⟨rfl, outside, absent⟩ | ⟨rfl, acquiring⟩⟩ | ⟨rfl, head⟩⟩ := enters
      · simp only [step, outside, absent, enterLocal, free, alone, if_true, Bool.not_false,
          List.isEmpty_nil, Bool.and_self, Bool.false_eq_true, if_false]
      · simp only [step, acquiring, enterLocal, free, alone, if_true, Bool.not_false,
          List.isEmpty_nil, Bool.and_self]
      · obtain ⟨rest, queue⟩ := List.head?_eq_some_iff.mp head
        simp only [step, queue, free, Bool.false_eq_true, if_false]
  constructor
  · intro one inside
    rcases inside_of_step inside with before | ⟨rfl, acquiring, held⟩
    · exact step_key permitted before (kept.keyed one before)
    · simp only [step, acquiring, held, and_self, if_true]
      exact held
  · exact locked
  · intro one two first second
    rcases inside_of_step first with before | enters
    · rcases inside_of_step second with also | enters
      · exact kept.single one two before also
      · cases enters.1.symm.trans (kept.locked one before)
    · rcases inside_of_step second with before | also
      · cases enters.1.symm.trans (kept.locked two before)
      · obtain ⟨-, ⟨-, ⟨rfl, -⟩ | ⟨rfl, -⟩⟩ | ⟨rfl, head⟩⟩ := enters
        · obtain ⟨-, ⟨-, ⟨same, -⟩ | ⟨same, -⟩⟩ | ⟨same, -⟩⟩ := also
          · exact Label.call.inj same
          · cases same
          · cases same
        · obtain ⟨-, ⟨-, ⟨same, -⟩ | ⟨same, -⟩⟩ | ⟨same, -⟩⟩ := also
          · cases same
          · exact Label.fail.inj same
          · cases same
        · obtain ⟨-, ⟨-, ⟨same, -⟩ | ⟨same, -⟩⟩ | ⟨-, also⟩⟩ := also
          · cases same
          · cases same
          · exact Option.some.inj (head.symm.trans also)
  · exact queued.2
  · exact queued.1
  · exact change.joined kept

theorem initial_outside (redis : Bool) (guard : Guard) (one : Acquisition) :
    ¬ (initial redis).Inside guard one :=
  fun inside => nomatch inside

theorem initial_kept (redis : Bool) : (initial redis).Kept where
  keyed one inside := absurd inside (initial_outside redis _ one)
  locked one inside := absurd inside (initial_outside redis _ one)
  single one _ inside := absurd inside (initial_outside redis _ one)
  queued _ member := absurd member List.not_mem_nil
  once := List.nodup_nil
  joined _ running := nomatch running

theorem initial_exclusive (redis : Bool) : (initial redis).Exclusive :=
  fun _ _ one _ inside => absurd inside (initial_outside redis _ one)

/-! ## Exclusion -/

theorem guard_cases (guard lock : Guard) : lock = guard ∨ lock = guard.other := by
  cases guard with
  | redis =>
    cases lock with
    | redis => exact .inl rfl
    | process => exact .inr rfl
  | process =>
    cases lock with
    | redis => exact .inr rfl
    | process => exact .inl rfl

/-- Each lock admits one coroutine. -/
theorem Kept.same (kept : state.Kept) (first : state.Inside guard one)
    (second : state.Inside guard two) : one = two := by
  cases guard with
  | redis =>
    have owner := (kept.keyed one first).symm.trans (kept.keyed two second)
    exact Owner.here.inj (Option.some.inj owner)
  | process => exact kept.single one two first second

/-- Nobody is inside by the other lock when a step apart lets an acquisition in. -/
theorem apart_outside (apart : state.Apart label) (enters : state.Enters label guard one) :
    ¬ state.Inside guard.other two := by
  intro inside
  cases (apart guard one enters).symm.trans ((state.occupied_iff guard.other).mpr ⟨two, inside⟩)

theorem step_exclusive (kept : state.Kept) (permitted : state.Permitted label)
    (exclusive : state.Exclusive) (apart : state.Apart label) : (state.step label).Exclusive := by
  have after := step_kept kept permitted
  -- two by one lock are the same; by two locks, the one that entered last found the other
  have across : ∀ guard one two, (state.step label).Inside guard one →
      (state.step label).Inside guard.other two → one = two := by
    intro guard one two first second
    rcases inside_of_step first with before | enters
    · rcases inside_of_step second with also | enters
      · exact exclusive guard guard.other one two before also
      · have outside : ¬ state.Inside guard.other.other one := apart_outside apart enters
        cases guard with
        | redis | process => exact absurd before outside
    · rcases inside_of_step second with also | also
      · exact absurd also (apart_outside apart enters)
      · cases guard with
        | redis =>
          obtain ⟨same, -⟩ := enters
          obtain ⟨-, ⟨-, ⟨other, -⟩ | ⟨other, -⟩⟩ | ⟨other, -⟩⟩ := also
          · cases same.symm.trans other
          · cases same.symm.trans other
          · cases same.symm.trans other
        | process =>
          obtain ⟨same, -⟩ := also
          obtain ⟨-, ⟨-, ⟨other, -⟩ | ⟨other, -⟩⟩ | ⟨other, -⟩⟩ := enters
          · cases same.symm.trans other
          · cases same.symm.trans other
          · cases same.symm.trans other
  intro guard lock one two first second
  rcases guard_cases guard lock with rfl | rfl
  · exact after.same first second
  · exact across guard one two first second

/-- A step that is not apart lets a second coroutine in. -/
theorem apart_of_step (kept : state.Kept) (exclusive : (state.step label).Exclusive) :
    state.Apart label := by
  intro guard one enters
  by_contra busy
  obtain ⟨two, inside⟩ := (state.occupied_iff guard.other).mp (Bool.not_eq_false _ |>.mp busy)
  obtain ⟨entered, others⟩ := @step_of_enters state label guard one two enters
  have outside := outside_of_enters kept.queued enters
  have ne : two ≠ one := by
    rintro rfl
    exact outside guard.other inside
  exact ne (exclusive guard guard.other one two entered (others guard.other ne inside)).symm

theorem exclusive_iff_apart {labels : List Label} (kept : state.Kept)
    (exclusive : state.Exclusive) (along : Along step Permitted state labels) :
    (∀ passed ∈ trace step state labels, passed.Exclusive) ↔ Along step Apart state labels := by
  induction labels generalizing state with
  | nil =>
    constructor
    · exact fun _ => trivial
    · intro _ passed member
      rwa [List.mem_singleton.mp member]
  | cons label rest ih =>
    obtain ⟨permitted, later⟩ := along
    have after := step_kept kept permitted
    constructor
    · intro all
      have next : (state.step label).Exclusive := by
        apply all
        exact List.mem_cons_of_mem state (head_mem_trace _ _ _)
      refine ⟨apart_of_step kept next, (ih after next later).mp fun passed member => ?_⟩
      exact all passed (List.mem_cons_of_mem state member)
    · rintro ⟨apart, rest⟩ passed member
      have next := step_exclusive kept permitted exclusive apart
      rcases List.mem_cons.mp member with rfl | tail
      · exact exclusive
      · exact (ih after next later).mpr rest passed tail

/-! ## Refused acquisitions -/

theorem Change.gone {next : Section} (change : Change state next) (kept : state.Kept)
    (gone : state.phase one = .gone) : next.phase one = .gone := by
  have moved {two : Acquisition} (source : state.phase two ≠ .gone) (phase : Phase) :
      (state.move two phase).phase one = .gone := by
    have ne : one ≠ two := by
      rintro rfl
      exact source gone
    exact (phase_move state two one phase).trans ((if_neg ne).trans gone)
  have other {two : Acquisition} {phase : Phase} (source : state.phase two = phase)
      (ne : phase ≠ .gone) : state.phase two ≠ .gone :=
    fun found => ne (source.symm.trans found)
  cases change with
  | key | settle => exact gone
  | move two phase source =>
    rcases source with source | source | source
    · exact moved (other source nofun) phase
    · exact moved (other source nofun) phase
    · exact moved (other source nofun) phase
  | enter two source =>
    have apart : state.phase two ≠ .gone := by
      rcases source with source | source
      · exact other source nofun
      · exact other source nofun
    unfold enterLocal
    split
    · exact moved apart _
    · exact moved apart _
  | wake two rest queue =>
    exact moved (other (kept.queued two (queue ▸ List.mem_cons_self)) nofun) _
  | unqueue two source => exact moved (other source nofun) _
  | start two guard last source => exact moved (other source nofun) _
  | turn two guard cancellation wakeup source =>
    unfold Section.turn
    split
    · exact gone
    · exact moved (other source nofun) _
  | leave two guard last source =>
    cases guard with
    | redis | process => exact moved (other source nofun) _

/-- An acquisition that is over never enters. -/
theorem run_gone {labels : List Label} (kept : state.Kept) (gone : state.phase one = .gone)
    (along : Along step Permitted state labels) (guard : Guard) :
    ¬ (run step state labels).Inside guard one := by
  have all := along.carries (fun state => state.Kept ∧ state.phase one = .gone) ⟨kept, gone⟩
    fun state label ⟨kept, gone⟩ permitted =>
      ⟨step_kept kept permitted, (step_change state label).gone kept gone⟩
  intro inside
  rw [Inside, all.2] at inside
  cases inside

theorem reachable_kept {redis : Bool}
    (reachable : Reachable step Permitted (initial redis) state) : state.Kept :=
  reachable.invariant (initial_kept redis) fun _ _ kept permitted => step_kept kept permitted

/-! ## Runs in which Redis never raises -/

theorem leave_queue_empty (present : state.redis = true) (alone : state.waiters = [])
    (lock : Guard) :
    (state.leave one lock).redis = true ∧ (state.leave one lock).waiters = [] := by
  cases lock with
  | redis | process => exact ⟨present, alone⟩

theorem turn_queue_empty (present : state.redis = true) (alone : state.waiters = [])
    (lock : Guard) (cancellation : Bool) (wakeup : Wakeup) :
    (state.turn one lock cancellation wakeup).redis = true ∧
      (state.turn one lock cancellation wakeup).waiters = [] := by
  unfold turn
  split
  · exact ⟨present, alone⟩
  · exact ⟨present, alone⟩

theorem step_queue_empty (present : state.redis = true) (alone : state.waiters = [])
    (heard : ∀ one, label ≠ .fail one) :
    (state.step label).redis = true ∧ (state.step label).waiters = [] := by
  cases label with
  | call one =>
    simp only [step, present, if_true]
    split
    · exact ⟨present, alone⟩
    · exact ⟨present, alone⟩
  | fail one => exact absurd rfl (heard one)
  | cancel one =>
    simp only [step]
    unfold cancel
    split
    · exact ⟨present, alone⟩
    · refine ⟨present, ?_⟩
      simp only [alone, List.erase_nil]
    · exact leave_queue_empty present alone _
    · exact turn_queue_empty present alone _ _ _
    · exact ⟨present, alone⟩
    · exact ⟨present, alone⟩
  | leave one =>
    simp only [step]
    split
    · exact leave_queue_empty present alone _
    · exact ⟨present, alone⟩
  | resume one =>
    simp only [step]
    split
    · split
      · exact ⟨present, alone⟩
      · exact turn_queue_empty present alone _ _ _
    · exact ⟨present, alone⟩
  | wake =>
    simp only [step, alone]
    exact ⟨present, trivial⟩
  | _ => grind [step, move]

/-- Where no acquisition raises, every step is apart. -/
theorem apart_of_heard {labels : List Label} (present : state.redis = true)
    (alone : state.waiters = []) (outside : ∀ one, ¬ state.Inside .process one)
    (heard : ∀ one, .fail one ∉ labels) : Along step Apart state labels := by
  induction labels generalizing state with
  | nil => trivial
  | cons label rest ih =>
    have answered : ∀ one, label ≠ .fail one := by
      rintro one rfl
      exact heard one List.mem_cons_self
    have shut : ∀ one, ¬ state.Enters label .process one := by
      rintro one ⟨-, ⟨-, ⟨-, -, absent⟩ | ⟨raised, -⟩⟩ | ⟨-, head⟩⟩
      · cases present.symm.trans absent
      · exact answered one raised
      · rw [alone] at head
        cases head
    obtain ⟨stays, empty⟩ := step_queue_empty present alone answered
    constructor
    · intro guard one enters
      cases guard with
      | redis =>
        apply Bool.eq_false_iff.mpr
        intro busy
        obtain ⟨two, inside⟩ := (state.occupied_iff .process).mp busy
        exact outside two inside
      | process => exact absurd enters (shut one)
    · apply ih stays empty
      · intro one inside
        rcases inside_of_step inside with before | enters
        · exact outside one before
        · exact shut one enters
      · exact fun one member => heard one (List.mem_cons_of_mem label member)

end Section

/-- A run has at most one coroutine inside at every moment exactly when nobody
gets in by one lock while another is inside by the other.  An acquisition that
timed out never enters, and a running action has its caller inside. -/
theorem one_mutation_at_a_time (redis : Bool) :
    (∀ labels, Along Section.step Section.Permitted (Section.initial redis) labels →
      ((∀ passed ∈ trace Section.step (Section.initial redis) labels, passed.Exclusive) ↔
        Along Section.step Section.Apart (Section.initial redis) labels)) ∧
    ∀ state, Reachable Section.step Section.Permitted (Section.initial redis) state →
      (∀ one, state.phase one = .acquiring →
        ∀ labels, Along Section.step Section.Permitted (state.step (.refuse one)) labels →
          ∀ guard, ¬ (run Section.step (state.step (.refuse one)) labels).Inside guard one) ∧
      ∀ one, state.tasks.get? one = some .running →
        ∃ guard cancellation, state.phase one = .inside guard (.joining cancellation) := by
  constructor
  · intro labels along
    exact Section.exclusive_iff_apart (Section.initial_kept redis)
      (Section.initial_exclusive redis) along
  · intro state reachable
    have kept := Section.reachable_kept reachable
    refine ⟨?_, kept.joined⟩
    intro one acquiring labels along guard
    have after : (state.step (.refuse one)).Kept := Section.step_kept kept trivial
    apply Section.run_gone after _ along guard
    simp only [Section.step, acquiring, if_true]
    exact (Section.phase_move state one one .gone).trans (if_pos rfl)

/-- One coroutine is inside and joins its action through two cancellations;
another is refused. -/
def contendedRun : List Label :=
  [.call 0, .attempt 0, .grant 0, .call 1, .start 0, .cancel 0, .refuse 1, .cancel 0,
    .settle 0 .returned, .resume 0, .leave 0, .release 0, .finish 0]

theorem one_mutation_at_a_time_contended :
    (∀ passed ∈ trace Section.step (Section.initial true) contendedRun, passed.Exclusive) ∧
      ¬ (run Section.step (Section.initial true) contendedRun).Inside .process 1 ∧
      ∃ guard cancellation,
        (run Section.step (Section.initial true) (contendedRun.take 8)).phase 0 =
          .inside guard (.joining cancellation) := by
  obtain ⟨exclusive, reached⟩ := one_mutation_at_a_time true
  refine ⟨?_, ?_, ?_⟩
  · apply (exclusive contendedRun (by decide +kernel)).mpr
    apply Section.apart_of_heard rfl rfl (fun one => Section.initial_outside true _ one)
    intro one raised
    simp only [contendedRun, List.mem_cons, reduceCtorEq, List.not_mem_nil, or_self] at raised
  · have before := reached _ ⟨contendedRun.take 6, by decide +kernel, rfl⟩
    exact before.1 1 (by decide +kernel) (contendedRun.drop 7) (by decide +kernel) .process
  · exact (reached _ ⟨contendedRun.take 8, by decide +kernel, rfl⟩).2 0 (by decide +kernel)

/-- The second acquisition raises while the first coroutine is inside. -/
def fallenBackRun : List Label := [.call 0, .attempt 0, .grant 0, .call 1, .fail 1]

theorem two_inside :
    ¬ ∀ (redis : Bool) (labels : List Label),
      Along Section.step Section.Permitted (Section.initial redis) labels →
        ∀ passed ∈ trace Section.step (Section.initial redis) labels, passed.Exclusive := by
  intro exclusive
  have last := exclusive true fallenBackRun (by decide +kernel) _
    (run_mem_trace Section.step (Section.initial true) fallenBackRun)
  have same := last .redis .process 0 1 (by unfold Section.Inside; decide +kernel)
    (by unfold Section.Inside; decide +kernel)
  exact absurd same (by decide)

end BobbyBotique.Games
