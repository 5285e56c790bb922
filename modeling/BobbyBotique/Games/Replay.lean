import BobbyBotique.Games.EventLog

/-!
# Replay without gaps

Along steps that keep the counters and the histories in order, no number is
given twice, each process gives rising numbers, and a replay holds exactly the
events of the last thirty-two that the client has not received.
-/

namespace BobbyBotique.Games

open Run

namespace Runtime

variable {state : Runtime} {label : RuntimeLabel}

/-- What orderly steps keep. -/
structure Ordered (state : Runtime) : Prop where
  bounded : ∀ call stamp, state.stamps.get? call = some stamp →
    ∀ next ∈ stamp.drawn, 0 < next ∧ next ≤ state.counter
  apart : ∀ first second one two, state.stamps.get? first = some one →
    state.stamps.get? second = some two → ∀ next ∈ one.drawn, next ∈ two.drawn → first = second
  fresh : ∀ call stamp, state.stamps.get? call = some stamp →
    ∀ next ∈ stamp.drawn, ∀ given ∈ state.issued, given.2 ≠ next
  distinct : (state.issued.map Prod.snd).Nodup
  rising : state.issued.Pairwise fun later earlier =>
    later.1 = earlier.1 → earlier.2 < later.2
  positive : ∀ given ∈ state.issued, 0 < given.2
  sorted : state.events.Pairwise fun earlier later => earlier.seq < later.seq
  numbered : ∀ event ∈ state.events, ∃ given ∈ state.issued, given.2 = event.seq
  whole : ∀ process, state.localHistory process = [] ∨
    state.localHistory process = lastItems state.events

theorem initial_ordered : initial.Ordered where
  bounded _ _ found := nomatch found
  apart _ _ _ _ found := nomatch found
  fresh _ _ found := nomatch found
  distinct := List.nodup_nil
  rising := List.Pairwise.nil
  positive _ member := absurd member List.not_mem_nil
  sorted := List.Pairwise.nil
  numbered _ member := absurd member List.not_mem_nil
  whole _ := .inl rfl

theorem localHistory_set (state : Runtime) (process other : Process) (history : List Item) :
    ({ state with histories := state.histories.set process history } : Runtime).localHistory other =
      if other = process then history else state.localHistory other := by
  simp only [localHistory, Dict.getD, Dict.get?_set]
  split
  · rfl
  · rfl

/-- The limit of a history with one event more. -/
theorem lastItems_append (history : List Item) (item : Item) :
    lastItems (lastItems history ++ [item]) = lastItems (history ++ [item]) := by
  simp only [lastItems, historyLimit, List.length_append, List.length_drop, List.length_singleton]
  by_cases short : history.length ≤ 32
  · rw [Nat.sub_eq_zero_of_le short, List.drop_zero, Nat.sub_zero]
  · rw [List.drop_append_of_le_length, List.drop_append_of_le_length, List.drop_drop]
    · congr 2
      omega
    · omega
    · rw [List.length_drop]
      omega

/-- Every other process has no history when an event can be stored. -/
theorem others_empty {process other : Process} {seq : Nat} (storable : state.Storable process seq)
    (ne : other ≠ process) : state.localHistory other = [] := by
  cases found : state.histories.get? other with
  | none => rw [localHistory, Dict.getD, found, Option.getD_none]
  | some history =>
    rcases storable.2.1 other (Dict.mem_keys_of_get? found) with same | empty
    · exact absurd same ne
    · exact empty

theorem append_ordered {process : Process} {item : Item} (ordered : state.Ordered)
    (storable : state.Storable process item.seq)
    (given : ∃ given ∈ state.issued, given.2 = item.seq) :
    (state.append process item).Ordered where
  bounded := ordered.bounded
  apart := ordered.apart
  fresh := ordered.fresh
  distinct := ordered.distinct
  rising := ordered.rising
  positive := ordered.positive
  sorted := by
    apply List.pairwise_append.mpr
    refine ⟨ordered.sorted, List.pairwise_singleton _ _, ?_⟩
    intro event member last single
    rw [List.mem_singleton.mp single]
    exact storable.1 event member
  numbered := by
    intro event member
    rcases List.mem_append.mp member with earlier | last
    · exact ordered.numbered event earlier
    · rw [List.mem_singleton.mp last]
      exact given
  whole := by
    intro other
    have stored : (state.append process item).localHistory other =
        if other = process then lastItems (state.localHistory process ++ [item])
        else state.localHistory other :=
      localHistory_set state process other _
    rw [stored]
    by_cases same : other = process
    · right
      rw [if_pos same]
      show _ = lastItems (state.events ++ [item])
      rcases ordered.whole process with empty | complete
      · have none : state.events = [] := by
          rcases storable.2.2 with none | loaded
          · exact none
          · exact absurd empty loaded
        rw [empty, none]
      · rw [complete, lastItems_append]
    · left
      rw [if_neg same]
      exact others_empty storable same

/-- A new number, above those of its process, that no other call has drawn. -/
theorem handOut_ordered {call : Call} {process : Process} {next current : Nat}
    (ordered : state.Ordered) (positive : 0 < next)
    (fresh : ∀ given ∈ state.issued, given.2 ≠ next)
    (above : ∀ given ∈ state.issued, given.1 = process → given.2 < next)
    (undrawn : ∀ other stamp, other ≠ call → state.stamps.get? other = some stamp →
      next ∉ stamp.drawn) : (state.handOut call process next current).Ordered where
  bounded other stamp found := by
    obtain ⟨-, stored⟩ := Dict.get?_del_eq_some.mp found
    exact ordered.bounded other stamp stored
  apart first second one two found also := by
    obtain ⟨-, stored⟩ := Dict.get?_del_eq_some.mp found
    obtain ⟨-, listed⟩ := Dict.get?_del_eq_some.mp also
    exact ordered.apart first second one two stored listed
  fresh other stamp found number drawn given member := by
    obtain ⟨ne, stored⟩ := Dict.get?_del_eq_some.mp found
    rcases List.mem_cons.mp member with rfl | earlier
    · rintro rfl
      exact undrawn other stamp ne stored drawn
    · exact ordered.fresh other stamp stored number drawn given earlier
  distinct := by
    apply List.nodup_cons.mpr
    refine ⟨fun member => ?_, ordered.distinct⟩
    obtain ⟨given, listed, same⟩ := List.mem_map.mp member
    exact fresh given listed same
  rising := by
    apply List.pairwise_cons.mpr
    exact ⟨fun given listed same => above given listed same.symm, ordered.rising⟩
  positive given member := by
    rcases List.mem_cons.mp member with rfl | earlier
    · exact positive
    · exact ordered.positive given earlier
  sorted := ordered.sorted
  numbered event member := by
    obtain ⟨given, listed, same⟩ := ordered.numbered event member
    exact ⟨given, List.mem_cons_of_mem _ listed, same⟩
  whole := ordered.whole

/-- A stamp that is set keeps the order when its number, if any, is new. -/
theorem stamp_ordered {call : Call} {stamp : Stamp} {counter : Nat} (ordered : state.Ordered)
    (grown : state.counter ≤ counter)
    (drawn : ∀ next ∈ stamp.drawn, state.counter < next ∧ next ≤ counter)
    (clear : ∀ next ∈ stamp.drawn, ∀ given ∈ state.issued, given.2 ≠ next) :
    ({ state with counter := counter, stamps := state.stamps.set call stamp } : Runtime).Ordered where
  bounded other entry found next taken := by
    have stored : (state.stamps.set call stamp).get? other = some entry := found
    rw [Dict.get?_set] at stored
    split at stored
    · cases stored
      exact ⟨Nat.zero_lt_of_lt (drawn next taken).1, (drawn next taken).2⟩
    · have old := ordered.bounded other entry stored next taken
      exact ⟨old.1, old.2.trans grown⟩
  apart first second one two found also next taken shared := by
    have stored : (state.stamps.set call stamp).get? first = some one := found
    have listed : (state.stamps.set call stamp).get? second = some two := also
    -- a new number lies above the counter, an old one does not
    have new {other : Call} {entry : Stamp} (stored : state.stamps.get? other = some entry)
        (taken : next ∈ entry.drawn) : next ∉ stamp.drawn := fun fresh =>
      absurd (ordered.bounded other entry stored next taken).2 (Nat.not_le.mpr (drawn next fresh).1)
    rw [Dict.get?_set] at stored listed
    split at stored
    · next left =>
        cases stored
        split at listed
        · next right => exact left.trans right.symm
        · exact absurd taken (new listed shared)
    · split at listed
      · cases listed
        exact absurd shared (new stored taken)
      · exact ordered.apart first second one two stored listed next taken shared
  fresh other entry found next taken := by
    have stored : (state.stamps.set call stamp).get? other = some entry := found
    rw [Dict.get?_set] at stored
    split at stored
    · cases stored
      exact clear next taken
    · exact ordered.fresh other entry stored next taken
  distinct := ordered.distinct
  rising := ordered.rising
  positive := ordered.positive
  sorted := ordered.sorted
  numbered := ordered.numbered
  whole := ordered.whole

theorem finish_ordered {call : Call} {stamp : Stamp} {answered : Bool} (ordered : state.Ordered)
    (found : state.stamps.get? call = some stamp)
    (orderly : state.Orderly (.finish call answered)) :
    (state.finish call stamp answered).Ordered := by
  have stored {next current : Nat} (handed : (state.handOut call stamp.process next current).Ordered)
      (storable : stamp.appends = true → state.Storable stamp.process next) :
      Runtime.Ordered (if stamp.appends then
        (state.handOut call stamp.process next current).append stamp.process ⟨next, call⟩
      else state.handOut call stamp.process next current) := by
    split
    · next appends =>
        exact append_ordered handed (storable appends) ⟨_, List.mem_cons_self, rfl⟩
    · exact handed
  unfold finish
  cases answered with
  | true =>
    cases drawn : stamp.drawn with
    | none =>
      simp only [nextEventSeq, drawn]
      exact ordered
    | some next =>
      simp only [nextEventSeq, drawn]
      obtain ⟨above, storable⟩ := orderly stamp found next drawn
      apply stored _ storable
      apply handOut_ordered ordered (ordered.bounded call stamp found next drawn).1
        (ordered.fresh call stamp found next drawn) above
      intro other entry ne listed taken
      exact ne (ordered.apart other call entry stamp listed found next taken drawn)
  | false =>
    simp only [nextEventSeq]
    obtain ⟨clear, undrawn, storable⟩ := orderly stamp found
    apply stored _ storable
    apply handOut_ordered ordered (Nat.succ_pos _)
    · intro given member
      exact (Nat.lt_succ_of_le (clear given member)).ne
    · intro given member _
      exact Nat.lt_succ_of_le (clear given member)
    · intro other entry ne listed taken
      have value : entry ∈ state.stamps.values := (state.stamps.mem_values_iff entry).mpr
        ⟨other, listed⟩
      rcases undrawn entry value _ taken with own | below
      · -- an equal stamp under another call would have drawn the same number
        exact ne (ordered.apart other call entry entry listed own _ taken taken)
      · exact Nat.not_succ_le_self _ below

theorem step_ordered (ordered : state.Ordered) (orderly : state.Orderly label) :
    (state.step label).Ordered := by
  cases label with
  | begin process call appends =>
    simp only [step]
    split
    · exact ordered
    · exact @stamp_ordered state call ⟨process, state.localSeq process, none, appends⟩ _ ordered
        le_rfl (by rintro _ ⟨⟩) (by rintro _ ⟨⟩)
  | incr call =>
    simp only [step]
    split
    · refine { ordered with bounded := fun other stamp found next drawn => ?_ }
      have old := ordered.bounded other stamp found next drawn
      exact ⟨old.1, old.2.trans (Nat.le_succ _)⟩
    · next stamp found =>
        apply stamp_ordered ordered (Nat.le_succ _)
        · rintro next ⟨⟩
          exact ⟨Nat.lt_succ_self _, le_rfl⟩
        · rintro next ⟨⟩ given member
          exact (Nat.lt_succ_of_le (orderly given member)).ne
  | finish call answered =>
    simp only [step]
    split
    · exact ordered
    · next stamp found => exact finish_ordered ordered found orderly
  | adopt process item appends =>
    obtain ⟨given, storable⟩ := orderly
    have adopted (table : Dict Process Nat) :
        ({ state with eventSeq := table } : Runtime).Ordered := { ordered with }
    simp only [step, adopt]
    split
    · next appends => exact append_ordered (adopted _) (storable appends) given
    · exact adopted _
  | push item | fetch process call =>
    simp only [step]
    split
    · exact { ordered with }
    · exact ordered
  | load call answered =>
    simp only [step]
    split
    · exact ordered
    · next fetch found =>
        have whole := orderly fetch found
        refine { ordered with whole := fun other => ?_ }
        by_cases full : (answered && !fetch.items.isEmpty) = true
        · rw [if_pos full] at whole ⊢
          have stored := localHistory_set state fetch.process other fetch.items
          rw [localHistory] at stored ⊢
          simp only at stored ⊢
          rw [stored]
          split
          · exact .inr whole
          · exact ordered.whole other
        · rw [if_neg full]
          exact ordered.whole other
  | restart process =>
    refine { ordered with bounded := ?_, apart := ?_, fresh := ?_, whole := ?_ }
    · intro call stamp found
      exact ordered.bounded call stamp ((Dict.get?_retain_eq_some _ _ _ _).mp found).1
    · intro first second one two found also
      exact ordered.apart first second one two ((Dict.get?_retain_eq_some _ _ _ _).mp found).1
        ((Dict.get?_retain_eq_some _ _ _ _).mp also).1
    · intro call stamp found
      exact ordered.fresh call stamp ((Dict.get?_retain_eq_some _ _ _ _).mp found).1
    · intro other
      by_cases same : other = process
      · left
        simp only [step, localHistory, Dict.getD, same, Dict.get?_del_self, Option.getD_none]
      · have kept := ordered.whole other
        simp only [step, localHistory, Dict.getD, Dict.get?_del_ne _ same] at kept ⊢
        exact kept
  | lapse => exact absurd orderly id

theorem run_ordered {labels : List RuntimeLabel} (along : Along step Orderly initial labels) :
    (run step initial labels).Ordered :=
  along.invariant (fun _ _ ordered orderly => step_ordered ordered orderly) initial_ordered

/-! ## Replays -/

theorem lastItems_sublist (history : List Item) : (lastItems history).Sublist history :=
  List.drop_sublist _ _

/-- The replay of the whole history is what the client has missed. -/
theorem replay_whole (ordered : state.Ordered) (afterSeq : Int) :
    replay (lastItems state.events) afterSeq = state.missed afterSeq := by
  unfold replay missed
  split
  · next nothing =>
      symm
      apply List.filter_eq_self.mpr
      intro item member
      obtain ⟨given, listed, same⟩ :=
        ordered.numbered item ((lastItems_sublist state.events).subset member)
      have positive := ordered.positive given listed
      exact decide_eq_true (by omega)
  · rfl

theorem missed_sorted (ordered : state.Ordered) (afterSeq : Int) :
    (state.missed afterSeq).Pairwise fun earlier later => earlier.seq < later.seq :=
  ordered.sorted.sublist (List.filter_sublist.trans (lastItems_sublist state.events))

theorem replay_local (ordered : state.Ordered) {process : Process}
    (stored : state.localHistory process ≠ []) (afterSeq : Int) :
    replay (state.localHistory process) afterSeq = state.missed afterSeq := by
  rcases ordered.whole process with empty | whole
  · exact absurd empty stored
  · rw [whole]
    exact replay_whole ordered afterSeq

theorem replay_loaded (ordered : state.Ordered) {call : Call} {fetch : Fetch} {answered : Bool}
    (found : state.fetches.get? call = some fetch) (orderly : state.Orderly (.load call answered))
    (afterSeq : Int) : replay (state.loaded fetch answered) afterSeq = state.missed afterSeq := by
  have whole := orderly fetch found
  unfold loaded
  split
  · next full =>
      rw [if_pos full] at whole
      rw [whole]
      exact replay_whole ordered afterSeq
  · next short =>
      rw [if_neg short] at whole
      rcases ordered.whole fetch.process with empty | complete
      · rcases whole with none | stored
        · rw [empty, ← replay_whole ordered, none]
          rfl
        · exact absurd empty stored
      · rw [complete]
        exact replay_whole ordered afterSeq

end Runtime

/-- Two events of one process, the second numbered locally because the reply of
`INCR` was lost; then the process restarts and reads the shared list. -/
def restartedRun : List RuntimeLabel :=
  [.begin 0 0 true, .incr 0, .finish 0 true, .push ⟨1, 0⟩, .begin 0 1 true, .incr 1,
    .finish 1 false, .push ⟨2, 1⟩, .restart 0, .fetch 0 2]

/-- Redis fails for one stamp and answers the next: both get number one.  And
without any failure: another process stores an event after this one has a
history, and the replay of this one misses it. -/
def failedOnceRun : List RuntimeLabel :=
  [.begin 0 0 false, .finish 0 false, .begin 0 1 false, .incr 1, .finish 1 true]

def twoProcessesRun : List RuntimeLabel :=
  [.begin 0 0 true, .incr 0, .finish 0 true, .push ⟨1, 0⟩, .begin 1 1 true, .incr 1,
    .finish 1 true, .push ⟨2, 1⟩]

end BobbyBotique.Games
