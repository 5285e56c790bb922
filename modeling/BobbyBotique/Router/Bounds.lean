import Mathlib.Data.List.Nodup
import BobbyBotique.Router.Keys
import BobbyBotique.Router.Lanes

/-!
# What a generator may spend

No key of a preferred model is called twice, no more keys than it has attempts, no model
is tried twice, and of the models of a hedge two race at most.
-/

namespace BobbyBotique.Router

variable {T M K : Type}

/-! ## The selection of keys -/

namespace Directory

variable [DecidableEq M] [DecidableEq K] {directory : Directory M K} {preferred first model : M}
  {failed : List K}

/-- Keys that may be tried beside those that failed. -/
structure Fresh (failed keys : List K) : Prop where
  distinct : keys.Nodup
  apart : ∀ key ∈ keys, key ∉ failed

omit [DecidableEq K] in
theorem Fresh.concat {failed keys : List K} {key : K} (fresh : Fresh failed keys)
    (other : key ∉ failed ++ keys) : Fresh failed (keys ++ [key]) where
  distinct := by
    refine List.nodup_append.mpr ⟨fresh.distinct, by simp, ?_⟩
    rintro one member _ listed rfl
    exact other (List.mem_append_right _ (List.mem_singleton.mp listed ▸ member))
  apart one member := by
    rcases List.mem_append.mp member with old | new
    · exact fresh.apart one old
    · rw [List.mem_singleton.mp new]
      exact fun listed => other (List.mem_append_left _ listed)

omit [DecidableEq K] in
theorem resolveKeys_spec (count moment : Nat) {keys : List K} {used : Option M}
    (fresh : Fresh failed keys) (plain : directory.vertex ∉ keys) :
    let found := directory.resolveKeys preferred failed count moment keys used
    Fresh failed found.1 ∧ directory.vertex ∉ found.1 ∧ found.1.length ≤ keys.length + count := by
  induction count generalizing moment keys used with
  | zero => exact ⟨fresh, plain, Nat.le_refl _⟩
  | succ count ih =>
    have stay : Fresh failed keys ∧ directory.vertex ∉ keys ∧
        keys.length ≤ keys.length + (count + 1) := ⟨fresh, plain, Nat.le_add_right _ _⟩
    rw [resolveKeys]
    split
    · split
      · exact stay
      · rename_i key other answer
        obtain ⟨unlisted, real⟩ := directory.resolved answer
        have further := @ih (moment + 1) (keys ++ [key]) (some other) (fresh.concat unlisted)
          (by simp [plain, real.symm])
        refine ⟨further.1, further.2.1, Nat.le_trans further.2.2 ?_⟩
        rw [List.length_append, List.length_singleton]
        omega
    · exact stay

theorem addVertex_spec (moment : Nat) {count : Nat} (positive : 0 < count) {keys : List K}
    {used : Option M} (fresh : Fresh failed keys) (plain : directory.vertex ∉ keys)
    (few : keys.length ≤ count) :
    let found := directory.addVertex moment preferred first failed count keys used
    Fresh failed found.1 ∧ found.1.length ≤ count := by
  have stay : Fresh failed keys ∧ keys.length ≤ count := ⟨fresh, few⟩
  have two : (if used.any (· != first) then 1 else count) = 2 → 2 ≤ count := by
    intro same
    split at same
    · cases same
    · exact Nat.le_of_eq same.symm
  dsimp only [addVertex]
  by_cases serves : directory.vertexServes moment (used.getD preferred) = true ∧
      directory.vertex ∉ failed
  · rw [if_pos serves]
    by_cases pair : (if used.any (· != first) then 1 else count) = 2
    · rw [if_pos pair]
      have front : Fresh failed (keys.take 1) :=
        ⟨fresh.distinct.sublist (List.take_sublist _ _),
          fun key member => fresh.apart key (List.mem_of_mem_take member)⟩
      refine ⟨front.concat ?_, ?_⟩
      · rw [List.mem_append, not_or]
        exact ⟨serves.2, fun member => plain (List.mem_of_mem_take member)⟩
      · rw [List.length_append, List.length_singleton]
        have short := List.length_take_le 1 keys
        have wide := two pair
        omega
    · rw [if_neg pair]
      by_cases alone : keys = [] ∨ failed ≠ []
      · rw [if_pos alone]
        refine ⟨⟨by simp, fun key member => ?_⟩, positive⟩
        rw [List.mem_singleton.mp member]
        exact serves.2
      · rw [if_neg alone]
        exact stay
  · rw [if_neg serves]
    exact stay

omit [DecidableEq M] in
/-- The keys that were reserved or stand in place of a key that was not. -/
theorem reserveKeys_spec {candidates : List K} (keys : List K) (moment : Nat)
    {failed reserved : List K} (known : keys ⊆ candidates)
    (fresh : Fresh failed (reserved ++ keys)) :
    let found := directory.reserveKeys model candidates keys moment failed reserved
    Fresh found.2 found.1 ∧ failed ⊆ found.2 ∧
      found.1.length ≤ reserved.length + keys.length := by
  induction keys generalizing moment failed reserved with
  | nil =>
    rw [List.append_nil] at fresh
    exact ⟨fresh, List.Subset.refl _, Nat.le_refl _⟩
  | cons key keys ih =>
    have others : keys ⊆ candidates := fun one member => known (List.mem_cons_of_mem _ member)
    have whole : reserved ++ key :: keys = reserved ++ [key] ++ keys := by simp
    rw [reserveKeys]
    split
    · have further := @ih (moment + 1) failed (reserved ++ [key]) others (whole ▸ fresh)
      refine ⟨further.1, further.2.1, Nat.le_trans further.2.2 ?_⟩
      simp only [List.length_append, List.length_cons, List.length_nil]
      omega
    · -- The key failed: it is none of the others.
      have parts := List.nodup_append.mp fresh.distinct
      have rest : Fresh (failed ++ [key]) (reserved ++ keys) := by
        refine ⟨fresh.distinct.sublist ?_, fun one member => ?_⟩
        · exact List.Sublist.append_left (List.sublist_cons_self _ _) _
        · rw [List.mem_append, not_or, List.mem_singleton]
          have apart : one ∉ failed := fresh.apart one (by
            rcases List.mem_append.mp member with front | back
            · exact List.mem_append_left _ front
            · exact List.mem_append_right _ (List.mem_cons_of_mem _ back))
          refine ⟨apart, ?_⟩
          rintro rfl
          rcases List.mem_append.mp member with front | back
          · exact parts.2.2 one front one List.mem_cons_self rfl
          · exact (List.nodup_cons.mp parts.2.1).1 back
      dsimp only
      split
      · rename_i other answer
        obtain ⟨unlisted, _⟩ := directory.replaced answer
        simp only [List.mem_append, not_or] at unlisted
        have added : Fresh (failed ++ [key]) (reserved ++ [other] ++ keys) := by
          have whole : (reserved ++ [other] ++ keys).Perm (reserved ++ keys ++ [other]) := by
            rw [List.append_assoc, List.append_assoc]
            exact List.Perm.append_left _ List.perm_append_comm
          have joined := @Fresh.concat K _ _ other rest (by
            simp only [List.mem_append, not_or]
            exact ⟨unlisted.1.1, unlisted.2, fun member => unlisted.1.2 (others member)⟩)
          exact ⟨whole.nodup_iff.mpr joined.distinct,
            fun one member => joined.apart one (whole.mem_iff.mp member)⟩
        have further := @ih (moment + 1) (failed ++ [key]) (reserved ++ [other]) others added
        refine ⟨further.1, List.Subset.trans (List.subset_append_left _ _) further.2.1,
          Nat.le_trans further.2.2 ?_⟩
        simp only [List.length_append, List.length_cons, List.length_nil]
        omega
      · have further := @ih (moment + 1) (failed ++ [key]) reserved others rest
        refine ⟨further.1, List.Subset.trans (List.subset_append_left _ _) further.2.1,
          Nat.le_trans further.2.2 ?_⟩
        rw [List.length_cons]
        omega

/-- The keys of an attempt are fresh, and no more than were asked for. -/
theorem select_spec (moment : Nat) {count : Nat} (positive : 0 < count) :
    let found := directory.select moment preferred first failed count
    failed ⊆ found.2 ∧ ∀ keys model, found.1 = some (keys, model) →
      keys ≠ [] ∧ keys.length ≤ count ∧ Fresh found.2 keys := by
  have resolved := @resolveKeys_spec M K _ directory preferred failed count moment [] none
    ⟨List.nodup_nil, fun _ member => absurd member List.not_mem_nil⟩ List.not_mem_nil
  rw [List.length_nil, Nat.zero_add] at resolved
  have chosen := @addVertex_spec M K _ _ directory preferred first failed (moment + count) count
    positive _ (directory.resolveKeys preferred failed count moment [] none).2 resolved.1
    resolved.2.1 resolved.2.2
  dsimp only [select]
  split
  · exact ⟨List.Subset.refl _, fun keys model absurd => by cases absurd⟩
  · rename_i model _
    have kept := @reserveKeys_spec M K _ directory model _ _ (moment + count) failed []
      (List.Subset.refl _) chosen.1
    refine ⟨kept.2.1, fun keys model found => ?_⟩
    dsimp only at found
    split at found
    · cases found
    · rename_i filled
      obtain ⟨rfl, _⟩ := Prod.mk.inj (Option.some.inj found)
      refine ⟨filled, ?_, kept.1⟩
      have few := kept.2.2
      rw [List.length_nil, Nat.zero_add] at few
      exact Nat.le_trans few chosen.2

end Directory

/-! ## The generator -/

namespace Keyed

open Directory (Fresh)

/-- What every run of a generator keeps. -/
structure Kept (route : Route) (keyed : Keyed T M K) : Prop where
  budget : keyed.serial.Budgeted
  tried : keyed.attempted.Nodup
  within : keyed.granted.length + keyed.serial.remaining ≤ route.attemptLimit
  once : keyed.called.Nodup
  paid : keyed.called ⊆ keyed.granted
  owned : keyed.keys ⊆ keyed.granted
  /-- A key that was called has failed, or it is in the race with its task. -/
  known : ∀ key ∈ keyed.called, key ∈ keyed.failedKeys ∨ ∃ (index : Nat) (task : KeyTask T),
    (index, key) ∈ keyed.candidates ∧ keyed.serial.tasks[index]? = some task ∧ task.Begun
  fresh : Fresh keyed.failedKeys keyed.keys
  /-- The key that a reserve lane holds while it waits for its reservation. -/
  held : ∀ index key, keyed.pending = some (index, key) → key ∉ keyed.failedKeys ∧ key ∉ keyed.keys
  /-- Between the attempts for a model no key is in a race. -/
  cleared : keyed.current ≠ none → keyed.serial.stage = .routing → keyed.candidates = []
  drained : keyed.closed = true → keyed.serial.left = true ∧
    ∀ (index : Nat) (task : KeyTask T), keyed.serial.tasks[index]? = some task → task.stage = .ended

variable {route : Route} {directory : Directory M K} {first : M} {keyed : Keyed T M K}

theorem initial_kept (route : Route) (models : List M) :
    (Keyed.initial route models : Keyed T M K).Kept route where
  budget := Serial.initial_budgeted route
  tried := List.nodup_nil
  within := Nat.zero_le _
  once := List.nodup_nil
  paid := List.Subset.refl _
  owned := List.Subset.refl _
  known _ member := absurd member List.not_mem_nil
  fresh := ⟨List.nodup_nil, fun _ member => absurd member List.not_mem_nil⟩
  held _ _ := nofun
  cleared := fun _ _ => rfl
  drained absurd := by cases absurd

/-- What was called is still accounted for once the tasks went on. -/
theorem Kept.goes (kept : keyed.Kept route) {serial : Serial T}
    (goes : Serial.Goes keyed.serial serial) :
    ∀ key ∈ keyed.called, key ∈ keyed.failedKeys ∨ ∃ (index : Nat) (task : KeyTask T),
      (index, key) ∈ keyed.candidates ∧ serial.tasks[index]? = some task ∧ task.Begun := by
  intro key member
  rcases kept.known key member with failed | ⟨index, task, listed, found, begun⟩
  · exact .inl failed
  · obtain ⟨later, stored, still⟩ := goes.begun index task found begun
    exact .inr ⟨index, later, listed, stored, still⟩

/-- The tasks go on while the keys stay. -/
theorem Kept.serial (kept : keyed.Kept route) (opened : keyed.closed = false) {serial : Serial T}
    (budget : serial.Budgeted) (goes : Serial.Goes keyed.serial serial) (current : Option M)
    (cleared : current ≠ none → serial.stage = .routing → keyed.candidates = []) :
    ({ keyed with serial, current } : Keyed T M K).Kept route where
  budget := budget
  tried := kept.tried
  within := by
    have same := goes.remaining
    have within := kept.within
    change keyed.granted.length + serial.remaining ≤ _
    omega
  once := kept.once
  paid := kept.paid
  owned := kept.owned
  known := kept.goes goes
  fresh := kept.fresh
  held := kept.held
  cleared := cleared
  drained closed := absurd (opened.symm.trans closed) Bool.false_ne_true

theorem mem_keys {index : Nat} {key : K} (member : (index, key) ∈ keyed.candidates) :
    key ∈ keyed.keys := List.mem_map.mpr ⟨(index, key), member, rfl⟩

/-- The keys of a race fail together when the race ends with its verdicts. -/
theorem Kept.settle (kept : keyed.Kept route) (opened : keyed.closed = false) {serial : Serial T}
    (budget : serial.Budgeted) (goes : Serial.Goes keyed.serial serial) :
    ({ keyed with
      serial, failedKeys := keyed.failedKeys ++ keyed.keys, candidates := [] } :
        Keyed T M K).Kept route where
  budget := budget
  tried := kept.tried
  within := by
    have same := goes.remaining
    have within := kept.within
    change keyed.granted.length + serial.remaining ≤ _
    omega
  once := kept.once
  paid := kept.paid
  owned := List.nil_subset _
  known key member := by
    rcases kept.known key member with failed | ⟨_, _, listed, _⟩
    · exact .inl (List.mem_append_left _ failed)
    · exact .inl (List.mem_append_right _ (mem_keys listed))
  fresh := ⟨List.nodup_nil, fun _ member => absurd member List.not_mem_nil⟩
  held index key pending := by
    obtain ⟨alive, apart⟩ := kept.held index key pending
    exact ⟨by rw [List.mem_append, not_or]; exact ⟨alive, apart⟩, List.not_mem_nil⟩
  cleared := fun _ _ => rfl
  drained closed := absurd (opened.symm.trans closed) Bool.false_ne_true

theorem taskStep_stage (serial : Serial T) (index : Nat) (task : KeyTask T)
    (label : SerialLabel T) : (serial.taskStep route index task label).stage = serial.stage := by
  cases label with
  | run other | prepared other able | emit other event | close other =>
    dsimp only [Serial.taskStep]
    split
    · split <;> rfl
    · rfl
  | fail other =>
    dsimp only [Serial.taskStep]
    split <;> rfl
  | abandon other ran =>
    dsimp only [Serial.taskStep]
    split
    · split <;> rfl
    · rfl
  | _ => rfl

/-- Only a race, or what stands between two, is followed by another attempt. -/
theorem routing_of_step {serial : Serial T} {label : SerialLabel T}
    (keyless : label.keyless = true) (routing : (serial.step route label).stage = .routing) :
    serial.stage = .routing ∨ serial.stage = .racing := by
  have idle : ∀ rest, (serial.idle && rest) = true → serial.stage = .routing := fun rest ready =>
    Serial.idle_routing (Bool.and_eq_true_iff.mp ready).1
  cases label with
  | admission allowed =>
    dsimp only [Serial.step] at routing
    split at routing
    · rename_i fresh
      exact .inl fresh.1
    · exact .inl routing
  | noRoute why | exhaust transient deferral =>
    dsimp only [Serial.step] at routing
    split at routing
    · rename_i ready
      exact .inl (idle _ ready)
    · exact .inl routing
  | crash =>
    dsimp only [Serial.step] at routing
    split at routing
    · rename_i fresh
      exact .inl fresh
    · exact .inl routing
  | take =>
    dsimp only [Serial.step, Serial.take] at routing
    split at routing
    · rename_i racing
      exact .inr racing
    · rename_i winner won
      split at routing
      · exact .inl routing
      · split at routing
        · unfold Serial.forward at routing
          split at routing
          · exact .inl routing
          · split at routing
            · cases routing
            · cases routing
          · cases routing
        · exact .inl routing
    · exact .inl routing
  | softTimer | deadline =>
    dsimp only [Serial.step] at routing
    split at routing
    · rename_i ready
      exact .inr ready.1
    · exact .inl routing
  | stall =>
    dsimp only [Serial.step] at routing
    split at routing
    · cases routing
    · exact .inl routing
  | interrupt =>
    dsimp only [Serial.step] at routing
    split at routing
    · exact .inl routing
    · cases routing
  | nextModel | race => cases keyless
  | run | prepared | emit | close | fail | abandon =>
    dsimp only [Serial.step] at routing
    split at routing
    · rw [taskStep_stage] at routing
      exact .inl routing
    · exact .inl routing

theorem Kept.owner (kept : keyed.Kept route) (opened : keyed.closed = false)
    {label : SerialLabel T} (keyless : label.keyless = true) :
    (keyed.owner route label).Kept route := by
  have plain : Serial.plainLabel label = true := by
    cases label with
    | prepared index found => cases found <;> first | rfl | cases keyless
    | nextModel | race | run => first | rfl | cases keyless
    | _ => rfl
  obtain ⟨budget, goes⟩ := @Serial.Budgeted.step T _ route kept.budget _ plain
  dsimp only [Keyed.owner]
  split
  · split
    · exact kept.settle opened budget goes
    · exact kept.serial opened budget goes none fun absurd => (absurd rfl).elim
  · rename_i going
    refine kept.serial opened budget goes keyed.current fun current routing => ?_
    rcases routing_of_step keyless routing with before | racing
    · exact kept.cleared current before
    · exact absurd ⟨racing, routing⟩ going

theorem prepared_stage (serial : Serial T) (index : Nat) (found : Bool) :
    (serial.step route (.prepared index found)).stage = serial.stage := by
  dsimp only [Serial.step]
  split
  · exact taskStep_stage serial index _ _
  · rfl

theorem run_stage (serial : Serial T) (index : Nat) :
    (serial.step route (.run index)).stage = serial.stage := by
  dsimp only [Serial.step]
  split
  · exact taskStep_stage serial index _ _
  · rfl

theorem Kept.release (kept : keyed.Kept route) :
    ({ keyed with pending := none } : Keyed T M K).Kept route :=
  ⟨kept.budget, kept.tried, kept.within, kept.once, kept.paid, kept.owned, kept.known, kept.fresh,
    fun _ _ => nofun, kept.cleared, kept.drained⟩

/-- A lane that ends without a key. -/
theorem Kept.giveUp (kept : keyed.Kept route) (opened : keyed.closed = false) (index : Nat) :
    (keyed.giveUp route index).Kept route := by
  obtain ⟨budget, goes⟩ :=
    @Serial.Budgeted.step T _ route kept.budget (.prepared index false) rfl
  exact (kept.serial opened budget goes keyed.current fun current routing =>
    kept.cleared current ((prepared_stage _ _ _).symm.trans routing)).release

theorem Kept.resolved [DecidableEq M] [DecidableEq K] (kept : keyed.Kept route)
    (opened : keyed.closed = false) (index moment : Nat) : (keyed.resolved route directory index moment).Kept route := by
  unfold Keyed.resolved
  split
  · exact kept
  · split
    · exact kept.giveUp opened index
    · rename_i key used answer
      split
      · obtain ⟨unlisted, _⟩ := directory.resolved answer
        rw [List.mem_append, not_or] at unlisted
        refine ⟨kept.budget, kept.tried, kept.within, kept.once, kept.paid, kept.owned, kept.known,
          kept.fresh, fun other held same => ?_, kept.cleared, kept.drained⟩
        obtain ⟨rfl, rfl⟩ := Prod.mk.inj (Option.some.inj same)
        exact unlisted
      · exact kept.giveUp opened index

/-- A key that was called is no key that may still be tried. -/
theorem Kept.not_called (kept : keyed.Kept route) {key : K} (alive : key ∉ keyed.failedKeys)
    (apart : key ∉ keyed.keys) : key ∉ keyed.called := by
  intro member
  rcases kept.known key member with failed | ⟨_, _, listed, _⟩
  · exact alive failed
  · exact apart (mem_keys listed)

theorem nodup_concat {A : Type} {entries : List A} {last : A} (distinct : entries.Nodup)
    (other : last ∉ entries) : (entries ++ [last]).Nodup := by
  refine List.nodup_append.mpr ⟨distinct, by simp, ?_⟩
  rintro one member _ listed rfl
  exact other (List.mem_singleton.mp listed ▸ member)

/-- A prepared reserve takes an attempt and is called. -/
theorem Kept.join (kept : keyed.Kept route) (opened : keyed.closed = false) {index : Nat}
    {task : KeyTask T} (found : keyed.serial.tasks[index]? = some task)
    (prepares : task.stage = .preparing) {key : K} (pending : keyed.pending = some (index, key))
    (racing : ¬(keyed.serial.stage = .routing ∧ keyed.current.isSome = true)) :
    ({ keyed with
      serial := keyed.serial.join route index task
      candidates := keyed.candidates ++ [(index, key)]
      pending := none
      granted := keyed.granted ++ [key]
      called := keyed.called ++ [key] } : Keyed T M K).Kept route := by
  obtain ⟨alive, apart⟩ := kept.held index key pending
  have keys : (keyed.candidates ++ [(index, key)]).map Prod.snd = keyed.keys ++ [key] := by
    rw [List.map_append]
    rfl
  obtain ⟨bound, _⟩ := List.getElem?_eq_some_iff.mp found
  refine ⟨kept.budget.join found prepares, kept.tried, ?_,
    nodup_concat kept.once (kept.not_called alive apart), ?_, ?_, ?_, ?_,
    fun _ _ => nofun, ?_, ?_⟩
  · have left := kept.budget.funded index task found prepares
    have within := kept.within
    change (keyed.granted ++ [key]).length + (keyed.serial.remaining - 1) ≤ _
    rw [List.length_append, List.length_singleton]
    omega
  · exact List.append_subset.mpr
      ⟨List.Subset.trans kept.paid (List.subset_append_left _ _), List.subset_append_right _ _⟩
  · rw [Keyed.keys, keys]
    exact List.append_subset.mpr
      ⟨List.Subset.trans kept.owned (List.subset_append_left _ _), List.subset_append_right _ _⟩
  · intro one member
    rcases List.mem_append.mp member with old | new
    · rcases kept.known one old with failed | ⟨other, later, listed, stored, begun⟩
      · exact .inl failed
      · obtain ⟨after, kept', still⟩ := @Serial.begun_set T index task
          { task with stage := .calling } keyed.serial.tasks found (.inl rfl) other later stored
          begun
        exact .inr ⟨other, after, List.mem_append_left _ listed, kept', still⟩
    · rw [List.mem_singleton.mp new]
      refine .inr ⟨index, { task with stage := .calling }, by simp, ?_, .inl rfl⟩
      exact List.getElem?_set_self bound
  · rw [Keyed.keys, keys]
    exact kept.fresh.concat (by rw [List.mem_append, not_or]; exact ⟨alive, apart⟩)
  · intro current routing
    exact absurd ⟨routing, Option.isSome_iff_ne_none.mpr current⟩ racing
  · exact fun closed => absurd (opened.symm.trans closed) Bool.false_ne_true

theorem Kept.reserved (kept : keyed.Kept route) (opened : keyed.closed = false) {index : Nat}
    {task : KeyTask T} (found : keyed.serial.tasks[index]? = some task)
    (prepares : task.stage = .preparing) {key : K} (pending : keyed.pending = some (index, key))
    (moment : Nat) (late : Bool) :
    (keyed.reserved route directory index task key moment late).Kept route := by
  obtain ⟨alive, apart⟩ := kept.held index key pending
  unfold Keyed.reserved
  split
  · split
    · exact kept.giveUp opened index
    · rename_i going
      exact kept.join opened found prepares pending fun both => going (.inr both)
  · split
    · refine ⟨kept.budget, kept.tried, kept.within, kept.once, kept.paid, kept.owned, ?_, ?_,
        fun _ _ => nofun, kept.cleared, kept.drained⟩
      · exact fun one member => (kept.known one member).imp_left (List.mem_append_left _)
      · refine ⟨kept.fresh.distinct, fun one member => ?_⟩
        rw [List.mem_append, not_or, List.mem_singleton]
        refine ⟨kept.fresh.apart one member, ?_⟩
        rintro rfl
        exact apart member
    · exact kept.giveUp opened index

/-- The first step of a task with a key: each key is called once. -/
theorem Kept.run (kept : keyed.Kept route) (opened : keyed.closed = false) {index : Nat}
    {task : KeyTask T} (found : keyed.serial.tasks[index]? = some task) :
    (keyed.run route index task).Kept route := by
  obtain ⟨budget, goes⟩ := @Serial.Budgeted.step T _ route kept.budget (.run index) rfl
  have going := kept.serial opened budget goes keyed.current fun current routing =>
    kept.cleared current ((run_stage _ _).symm.trans routing)
  unfold Keyed.run
  dsimp only
  split
  · rename_i created
    cases listed : keyed.candidates.find? (·.1 = index) with
    | none => simpa using going
    | some entry =>
      obtain ⟨other, key⟩ := entry
      obtain rfl : other = index := by simpa using List.find?_some listed
      have member := List.mem_of_find?_eq_some listed
      obtain ⟨bound, _⟩ := List.getElem?_eq_some_iff.mp found
      have after : (keyed.serial.step route (.run other)).tasks =
          keyed.serial.tasks.set other { task with stage := .calling } := by
        dsimp only [Serial.step]
        rw [found]
        dsimp only [Serial.taskStep]
        rw [if_pos created.1, if_neg (by rw [created.2]; exact Bool.false_ne_true)]
        rfl
      have unspent : key ∉ keyed.called := by
        intro already
        rcases kept.known key already with failed | ⟨lane, later, held, stored, begun⟩
        · exact kept.fresh.apart key (mem_keys member) failed
        · have same := List.inj_on_of_nodup_map kept.fresh.distinct held member rfl
          obtain rfl := (Prod.mk.inj same).1
          obtain rfl := Option.some.inj (stored.symm.trans found)
          rcases begun with calls | ended
          · cases created.1.symm.trans calls
          · cases created.1.symm.trans ended
      refine ⟨going.budget, going.tried, going.within, nodup_concat kept.once unspent, ?_,
        going.owned, ?_, going.fresh, going.held, going.cleared, going.drained⟩
      · exact List.append_subset.mpr ⟨kept.paid, fun one listed => by
          rw [List.mem_singleton.mp listed]
          exact kept.owned (mem_keys member)⟩
      · intro one listed
        rcases List.mem_append.mp listed with old | new
        · exact going.known one old
        · rw [List.mem_singleton.mp new]
          refine .inr ⟨other, { task with stage := .calling }, member, ?_, .inl rfl⟩
          rw [after]
          exact List.getElem?_set_self bound
  · simpa using going

section

variable [DecidableEq M] [DecidableEq K]

omit [DecidableEq K] in
/-- The next model that was not tried is tried, with all its attempts. -/
theorem Kept.nextModel (kept : keyed.Kept route) (opened : keyed.closed = false)
    (ready : (keyed.serial.idle && keyed.serial.admitted) = true) :
    (keyed.nextModel route).Kept route := by
  unfold Keyed.nextModel
  split
  · exact kept
  · rename_i preferred rest _
    split
    · exact ⟨kept.budget, kept.tried, kept.within, kept.once, kept.paid, kept.owned, kept.known,
        kept.fresh, kept.held, kept.cleared, kept.drained⟩
    · rename_i untried
      have refilled : keyed.serial.step route .nextModel =
          { keyed.serial with remaining := route.attemptLimit } := by
        dsimp only [Serial.step]
        rw [if_pos ready]
      rw [refilled]
      refine ⟨Serial.Budgeted.refill (Bool.and_eq_true_iff.mp ready).1 rfl rfl,
        nodup_concat kept.tried untried, ?_, List.nodup_nil, List.Subset.refl _,
        List.Subset.refl _, fun _ member => absurd member List.not_mem_nil,
        ⟨List.nodup_nil, fun _ member => absurd member List.not_mem_nil⟩,
        fun _ _ _ => ⟨List.not_mem_nil, List.not_mem_nil⟩, fun _ _ => rfl,
        fun closed => absurd (opened.symm.trans closed) Bool.false_ne_true⟩
      exact Nat.le_of_eq (Nat.zero_add _)

/-- An attempt takes as many of what is left as it has keys. -/
theorem Kept.select (kept : keyed.Kept route) (opened : keyed.closed = false)
    (ready : (keyed.serial.idle && keyed.serial.admitted) = true)
    (left : 0 < keyed.serial.remaining) {preferred : M} (current : keyed.current = some preferred)
    (moment : Nat) (racing primary : Bool) :
    (keyed.select route directory first preferred moment racing primary).Kept route := by
  have routing := Serial.idle_routing (Bool.and_eq_true_iff.mp ready).1
  have cleared := kept.cleared (by rw [current]; exact Option.some_ne_none _) routing
  have spent : ∀ key ∈ keyed.called, key ∈ keyed.failedKeys := by
    intro key member
    rcases kept.known key member with failed | ⟨_, _, listed, _⟩
    · exact failed
    · rw [cleared] at listed
      exact absurd listed List.not_mem_nil
  have asked : 0 < min (if racing then 2 else 1) keyed.serial.remaining :=
    Nat.lt_min.mpr ⟨by split <;> decide, left⟩
  obtain ⟨grown, chosen⟩ := @Directory.select_spec M K _ _ directory preferred first
    keyed.failedKeys moment _ asked
  unfold Keyed.select
  dsimp only
  split
  · rename_i keys model failed found
    rw [found] at grown chosen
    obtain ⟨filled, few, fresh⟩ := chosen keys model rfl
    have bounds := Nat.le_min.mp few
    have positive := List.length_pos_of_ne_nil filled
    have two : keys.length ≤ 2 := Nat.le_trans bounds.1 (by split <;> decide)
    have started : keyed.serial.step route (.race keys.length primary) =
        keyed.serial.start route keys.length primary := by
      dsimp only [Serial.step]
      rw [if_pos ⟨ready, positive, Nat.le_min.mpr ⟨two, bounds.2⟩⟩]
    have named : ((List.range keys.length).zip keys).map Prod.snd = keys :=
      List.map_snd_zip (Nat.le_of_eq List.length_range.symm)
    rw [started]
    refine ⟨Serial.Budgeted.start route _ _ _, kept.tried, ?_, kept.once, ?_, ?_, ?_, ?_,
      fun _ _ => nofun, fun _ => nofun,
      fun closed => absurd (opened.symm.trans closed) Bool.false_ne_true⟩
    · have within := kept.within
      change (keyed.granted ++ keys).length + (keyed.serial.remaining - keys.length) ≤ _
      rw [List.length_append]
      omega
    · exact List.Subset.trans kept.paid (List.subset_append_left _ _)
    · rw [Keyed.keys, named]
      exact List.subset_append_right _ _
    · exact fun key member => .inl (grown (spent key member))
    · rw [Keyed.keys, named]
      exact fresh
  · rename_i failed found
    rw [found] at grown
    obtain ⟨budget, goes⟩ :=
      @Serial.Budgeted.step T _ route kept.budget (.noRoute .keys) rfl
    have going := kept.serial opened budget goes none fun absurd => (absurd rfl).elim
    refine ⟨going.budget, going.tried, going.within, going.once, going.paid, going.owned,
      fun key member => .inl (grown (spent key member)), ?_, fun _ _ => nofun, going.cleared,
      going.drained⟩
    rw [Keyed.keys, cleared]
    exact ⟨List.nodup_nil, fun _ member => absurd member List.not_mem_nil⟩

theorem Kept.step (kept : keyed.Kept route) (label : KeyedLabel T M) :
    (keyed.step route directory first label).Kept route := by
  unfold Keyed.step
  split
  · exact kept
  rename_i going
  have opened : keyed.closed = false := Bool.not_eq_true _ ▸ going
  cases label with
  | owner label =>
    dsimp only
    split
    · rename_i keyless
      exact kept.owner opened keyless
    · exact kept
  | fallback model =>
    dsimp only
    split
    · exact ⟨kept.budget, kept.tried, kept.within, kept.once, kept.paid, kept.owned, kept.known,
        kept.fresh, kept.held, kept.cleared, kept.drained⟩
    · exact kept
  | nextModel =>
    dsimp only
    split
    · rename_i ready
      exact kept.nextModel opened ready.1
    · exact kept
  | leaveModel =>
    dsimp only
    split
    · exact ⟨kept.budget, kept.tried, kept.within, kept.once, kept.paid, kept.owned, kept.known,
        kept.fresh, kept.held, fun absurd => (absurd rfl).elim, kept.drained⟩
    · exact kept
  | select moment racing primary =>
    dsimp only
    split
    · rename_i current
      split
      · rename_i ready
        exact kept.select opened ready.1 ready.2 current moment racing primary
      · exact kept
    · exact kept
  | run index =>
    dsimp only
    split
    · rename_i found
      exact kept.run opened found
    · exact kept
  | resolved index moment =>
    dsimp only
    split
    · split
      · exact kept.resolved opened index moment
      · exact kept
    · exact kept
  | reserved index moment late =>
    dsimp only
    split
    · rename_i found pending
      split
      · rename_i prepares
        obtain ⟨prepares, rfl⟩ := prepares
        exact kept.reserved opened found prepares pending moment late
      · exact kept
    · exact kept
  | closed =>
    dsimp only
    split
    · rename_i ready
      obtain ⟨left, ended⟩ := Bool.and_eq_true_iff.mp ready
      refine ⟨kept.budget, kept.tried, kept.within, kept.once, kept.paid, kept.owned, kept.known,
        kept.fresh, kept.held, kept.cleared, fun _ => ⟨left, fun index task found => ?_⟩⟩
      exact of_decide_eq_true (List.all_eq_true.mp ended task (List.mem_of_getElem? found))
    · exact kept

end

end Keyed

/-! ## The lanes of a hedge -/

namespace Hedge

/-- The primary model and one reserve. -/
structure Paired (hedge : Hedge T) : Prop where
  within : ∀ lane ∈ hedge.active, lane < hedge.lanes.length
  one : ∃ reserve, ∀ lane ∈ hedge.active, lane = 0 ∨ lane = reserve

variable {hedge before after : Hedge T} {request : Request}

theorem Paired.fewer (paired : before.Paired) (active : ∀ lane ∈ after.active, lane ∈ before.active)
    (lanes : before.lanes.length ≤ after.lanes.length) : after.Paired where
  within lane member := Nat.lt_of_lt_of_le (paired.within lane (active lane member)) lanes
  one := by
    obtain ⟨reserve, all⟩ := paired.one
    exact ⟨reserve, fun lane member => all lane (active lane member)⟩

/-- A model is started only beside the first. -/
theorem Paired.start (paired : hedge.Paired)
    (alone : ∀ lane ∈ hedge.active, lane = 0) : (hedge.start request).Paired where
  within lane member := by
    change lane < (hedge.lanes ++ [_]).length
    rw [List.length_append, List.length_singleton]
    rcases List.mem_append.mp member with old | new
    · exact Nat.lt_succ_of_lt (paired.within lane old)
    · rw [List.mem_singleton.mp new]
      exact Nat.lt_succ_self _
  one := by
    refine ⟨hedge.lanes.length, fun lane member => ?_⟩
    rcases List.mem_append.mp member with old | new
    · exact .inl (alone lane old)
    · exact .inr (List.mem_singleton.mp new)

theorem alone_of_canStart (able : hedge.canStart request = true) :
    ∀ lane ∈ hedge.active, lane = 0 := by
  intro lane member
  have all := List.all_eq_true.mp (Bool.and_eq_true_iff.mp able).2 lane member
  exact beq_iff_eq.mp all

theorem Paired.leave (paired : before.Paired) (stage : HedgeStage)
    (active : after.active = before.active) (lanes : after.lanes = before.lanes) :
    (after.leave stage).Paired := by
  refine paired.fewer (fun lane member => active ▸ member) ?_
  change _ ≤ (cancelLanes _ after.lanes).length
  exact Nat.le_of_eq (by rw [length_cancelLanes, lanes])

theorem Paired.consume (paired : hedge.Paired) {rest : List (Nat × Item T)} (index : Nat)
    (item : Item T) : ({ hedge with queue := rest }.consume request index item).Paired := by
  have same : Paired { hedge with queue := rest } :=
    paired.fewer (fun _ member => member) (Nat.le_refl _)
  cases item with
  | error => exact paired.leave .raised rfl rfl
  | wake => exact same
  | done =>
    have fewer : Paired { hedge with queue := rest, active := hedge.active.erase index } :=
      paired.fewer (fun _ member => List.mem_of_mem_erase member) (Nat.le_refl _)
    dsimp only [Hedge.consume]
    split
    · rename_i able
      exact fewer.start (alone_of_canStart able)
    · exact fewer
  | event event =>
    cases event with
    | text delta =>
      refine paired.fewer (fun _ member => member) ?_
      change _ ≤ (cancelLanes _ hedge.lanes).length
      exact Nat.le_of_eq (by rw [length_cancelLanes])
    | completed => exact paired.fewer (fun _ member => member) (Nat.le_refl _)
    | deferred task => exact paired.leave .returned rfl rfl
    | failed failure =>
      dsimp only [Hedge.consume]
      split
      · exact paired.leave .returned rfl rfl
      · exact paired.fewer (fun _ member => member) (Nat.le_refl _)

theorem Paired.turn (paired : hedge.Paired) : (hedge.turn request).Paired := by
  unfold Hedge.turn
  split
  · split
    · exact paired.leave .returned rfl rfl
    · split
      · rename_i able
        exact paired.start (alone_of_canStart (Bool.and_eq_true_iff.mp able).1)
      · split
        · exact paired
        · exact paired.consume _ _
  · split
    · exact paired
    · split
      · unfold Hedge.forward
        split
        · exact paired.fewer (fun _ member => member) (Nat.le_refl _)
        · exact paired.leave .returned rfl rfl
        · exact paired.leave .raised rfl rfl
      · exact paired.fewer (fun _ member => member) (Nat.le_refl _)
  · exact paired

theorem Paired.relay (paired : hedge.Paired) (index : Nat) (lane : Lane T) (serial : Serial T) :
    (hedge.relay index lane serial).Paired :=
  paired.fewer (fun _ member => member) (List.length_set ▸ Nat.le_refl _)

theorem Paired.step (paired : hedge.Paired) (label : HedgeLabel T) :
    (hedge.step request label).Paired := by
  cases label with
  | admission allowed =>
    dsimp only [Hedge.step]
    split
    · rename_i fresh
      have alone : ∀ lane ∈ hedge.active, lane = 0 := by
        intro lane member
        have inside := paired.within lane member
        rw [fresh.2] at inside
        exact absurd inside (Nat.not_lt_zero _)
      split
      · exact (paired.start alone).fewer (fun _ member => member) (Nat.le_refl _)
      · exact paired.leave .returned rfl rfl
    · exact paired
  | lane index label =>
    dsimp only [Hedge.step]
    split
    · split
      · exact paired
      · exact paired.relay _ _ _
    · exact paired
  | unwind index =>
    dsimp only [Hedge.step]
    split
    · split
      · exact paired.relay _ _ _
      · exact paired
    · exact paired
  | close index =>
    dsimp only [Hedge.step]
    split
    · split
      · exact paired.fewer (fun _ member => member) (List.length_set ▸ Nat.le_refl _)
      · exact paired
    · exact paired
  | turn =>
    dsimp only [Hedge.step]
    split
    · exact paired
    · exact paired.turn
  | timer expired =>
    dsimp only [Hedge.step]
    split
    · split
      · exact paired.leave .returned rfl rfl
      · split
        · rename_i able
          exact paired.start (alone_of_canStart able)
        · exact paired
    · exact paired
  | interrupt =>
    dsimp only [Hedge.step]
    split
    · exact paired
    · exact paired.leave .interrupted rfl rfl

theorem initial_paired (checksRate : Bool) : (Hedge.initial checksRate : Hedge T).Paired where
  within _ member := absurd member List.not_mem_nil
  one := ⟨0, fun _ member => absurd member List.not_mem_nil⟩

end Hedge

/-- What every run of a hedge with its drain keeps. -/
structure Hedging.Kept (hedging : Hedging T) : Prop where
  hedge : hedging.hedge.Kept
  paired : hedging.hedge.Paired
  drained : hedging.closed = true → ∀ lane ∈ hedging.hedge.lanes, lane.ended = true

theorem Hedging.Kept.step {hedging : Hedging T} (kept : hedging.Kept) (request : Request)
    (label : Option (HedgeLabel T)) : (hedging.step request label).Kept := by
  cases label with
  | none =>
    dsimp only [Hedging.step]
    split
    · rename_i ready
      refine ⟨kept.hedge, kept.paired, fun _ => ?_⟩
      exact List.all_eq_true.mp (Bool.and_eq_true_iff.mp ready).2
    · exact kept
  | some label =>
    dsimp only [Hedging.step]
    split
    · exact kept
    · rename_i opened
      exact ⟨kept.hedge.step request label, kept.paired.step label,
        fun closed => absurd closed opened⟩

/-- Of the lanes of a hedge the first and one more go on at most. -/
theorem Hedging.Kept.pair {hedging : Hedging T} (kept : hedging.Kept) :
    ∃ reserve, ∀ (index : Nat) (lane : Lane T), hedging.hedge.lanes[index]? = some lane →
      lane.ended = false → index = 0 ∨ index = reserve := by
  obtain ⟨reserve, all⟩ := kept.paired.one
  refine ⟨reserve, fun index lane found going => all index ?_⟩
  refine Decidable.byContradiction fun idle => ?_
  exact Bool.false_ne_true (going.symm.trans (kept.hedge.done index lane found (.inr idle)))

section

variable [DecidableEq M] [DecidableEq K]

/--
Of the lanes of a hedge two go on at most, the first among them.  A generator tries no
model twice, calls no key twice for a preferred model and no more keys than it has
attempts, and prepares one reserve at a time; when its race waits for the queue, an entry
is there or a lane is not over.  Every task has ended when a generator is closed.
-/
theorem hedging_is_bounded :
    (∀ (request : Request) (checksRate : Bool) (labels : List (Option (HedgeLabel T))),
      let hedging := Run.run (Hedging.step request) ⟨Hedge.initial checksRate, false⟩ labels
      (∃ reserve, ∀ (index : Nat) (lane : Lane T), hedging.hedge.lanes[index]? = some lane →
        lane.ended = false → index = 0 ∨ index = reserve) ∧
      (hedging.closed = true → ∀ lane ∈ hedging.hedge.lanes, lane.ended = true)) ∧
    ∀ (route : Route) (directory : Directory M K) (first : M) (models : List M)
      (labels : List (KeyedLabel T M)),
      let keyed := Run.run (Keyed.step route directory first) (Keyed.initial route models) labels
      keyed.attempted.Nodup ∧ keyed.called.Nodup ∧ keyed.called.length ≤ route.attemptLimit ∧
      (∀ (index other : Nat) (task another : KeyTask T), keyed.serial.tasks[index]? = some task →
        keyed.serial.tasks[other]? = some another → task.stage = .preparing →
        another.stage = .preparing → index = other) ∧
      (keyed.serial.stage = .racing → keyed.serial.finished.length < keyed.serial.tasks.length →
        keyed.serial.queue ≠ [] ∨ ∃ (index : Nat) (task : KeyTask T),
          keyed.serial.tasks[index]? = some task ∧ task.stage ≠ .ended) ∧
      (keyed.closed = true → ∀ (index : Nat) (task : KeyTask T),
        keyed.serial.tasks[index]? = some task → task.stage = .ended) := by
  constructor
  · intro request checksRate labels hedging
    have kept : hedging.Kept := Run.run_keeps Hedging.Kept
      (fun _ label kept => Hedging.Kept.step kept request label)
      ⟨Hedge.initial_kept checksRate, Hedge.initial_paired checksRate,
        fun closed => absurd closed Bool.false_ne_true⟩ labels
    exact ⟨kept.pair, kept.drained⟩
  · intro route directory first models labels keyed
    have kept : keyed.Kept route := Run.run_keeps (Keyed.Kept route)
      (fun _ label kept => kept.step label) (Keyed.initial_kept route models) labels
    refine ⟨kept.tried, kept.once, ?_, kept.budget.single, ?_,
      fun closed => (kept.drained closed).2⟩
    · have few := (kept.once.subperm kept.paid).length_le
      have within := kept.within
      omega
    · exact fun racing => (kept.budget.race racing).waits

end

/-- Three keys, each given until it is excluded. -/
def threeKeys : Directory Nat Nat where
  resolve _ model excluded := ([1, 2, 3].find? fun key => !excluded.contains key).map (·, model)
  replacement _ _ _ := none
  reserve _ _ _ := true
  vertex := 0
  vertexServes _ _ := false
  resolved := by
    intro _ model excluded key used answer
    obtain ⟨found, chosen, same⟩ := Option.map_eq_some_iff.mp answer
    obtain rfl := (Prod.mk.inj same).1
    refine ⟨by simpa using List.find?_some chosen, ?_⟩
    have member := List.mem_of_find?_eq_some chosen
    rintro rfl
    exact absurd member (by decide)
  replaced := nofun

/-- Two keys race and a third joins them. -/
theorem hedging_is_bounded_threeKeys :
    let route : Route := ⟨false, 3, 3, true, false⟩
    let keyed : Keyed Unit Nat Nat := Run.run (Keyed.step route threeKeys 7)
      (Keyed.initial route [7]) [.nextModel, .select 0 true true, .run 0, .run 1,
        .owner .softTimer, .resolved 2 5, .reserved 2 6 false]
    keyed.called = [1, 2, 3] ∧ keyed.called.length ≤ 3 :=
  ⟨by decide, ((hedging_is_bounded (T := Unit)).2 ⟨false, 3, 3, true, false⟩ threeKeys 7 [7]
    [.nextModel, .select 0 true true, .run 0, .run 1, .owner .softTimer, .resolved 2 5,
      .reserved 2 6 false]).2.2.1⟩

end BobbyBotique.Router
