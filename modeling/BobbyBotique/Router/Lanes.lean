import BobbyBotique.Router.Hedge

/-!
# One model answers

What the lanes put into the queue of a hedged request and what its owner takes from
it: the owner yields what one lane yielded, in order.
-/

namespace BobbyBotique.Router

variable {T : Type}

def Item.event? : Item T → Option (Event T)
  | .event one => some one
  | _ => none

/-- The events of a lane that wait in the queue. -/
def waiting (index : Nat) (queue : List (Nat × Item T)) : List (Event T) :=
  queue.filterMap fun entry => if entry.1 = index then entry.2.event? else none

theorem waiting_append (index : Nat) (first second : List (Nat × Item T)) :
    waiting index (first ++ second) = waiting index first ++ waiting index second :=
  List.filterMap_append

theorem waiting_other {index : Nat} {queue : List (Nat × Item T)}
    (other : ∀ entry ∈ queue, entry.1 ≠ index) : waiting index queue = [] := by
  unfold waiting
  rw [List.filterMap_eq_nil_iff]
  intro entry among
  rw [if_neg (other entry among)]

theorem waiting_silent {index : Nat} {queue : List (Nat × Item T)}
    (silent : ∀ entry ∈ queue, entry.2.event? = none) : waiting index queue = [] := by
  unfold waiting
  rw [List.filterMap_eq_nil_iff]
  intro entry among
  rw [silent entry among]
  exact ite_self none

theorem waiting_cons (index other : Nat) (item : Item T) (rest : List (Nat × Item T)) :
    waiting index ((other, item) :: rest) =
      (if other = index then item.event?.toList else []) ++ waiting index rest := by
  unfold waiting
  rw [List.filterMap_cons]
  by_cases same : other = index
  · rw [if_pos same, if_pos same]
    cases item <;> rfl
  · rw [if_neg same, if_neg same]
    rfl

theorem waiting_own (index : Nat) (events : List (Event T)) :
    waiting index (events.map fun event => (index, .event event)) = events := by
  induction events with
  | nil => rfl
  | cons event rest ih =>
    rw [List.map_cons, waiting_cons, if_pos rfl, ih]
    rfl

namespace Answers

/-- The terminal event behind deltas is a late one. -/
theorem late {said : List T → Prop} {deltas : List T} {event : Event T}
    (answers : Answers said (deltas.map .text ++ [event])) (ending : event.delta? = none)
    (some : deltas ≠ []) : said deltas ∧ event.late = true := by
  obtain ⟨others, tail, same, closing, spoken⟩ := answers
  rcases closing with rfl | ⟨last, rfl, _, late⟩
  · have among : event ∈ others.map Event.text := by
      rw [← List.append_nil (others.map Event.text), ← same]
      exact List.mem_append_right _ List.mem_cons_self
    obtain ⟨delta, _, rfl⟩ := List.mem_map.mp among
    cases ending
  · obtain ⟨front, back⟩ := List.append_inj' same rfl
    cases back
    have alike : deltas = others := by
      refine (List.map_inj_right ?_).mp front
      intro first second same
      cases same
      rfl
    subst alike
    exact ⟨spoken some, late some⟩

/-- Deltas alone that were said. -/
theorem said {said : List T → Prop} {deltas : List T} (answers : Answers said (deltas.map .text))
    (some : deltas ≠ []) : said deltas := by
  obtain ⟨others, tail, same, closing, spoken⟩ := answers
  have injective : ∀ first second : T, Event.text first = Event.text second → first = second :=
    fun _ _ same => Event.text.inj same
  rcases closing with rfl | ⟨last, rfl, ending, _⟩
  · rw [List.append_nil] at same
    have alike := (List.map_inj_right injective).mp same
    subst alike
    exact spoken some
  · have among : last ∈ deltas.map Event.text := by
      rw [same]
      exact List.mem_append_right _ List.mem_cons_self
    obtain ⟨delta, _, rfl⟩ := List.mem_map.mp among
    cases ending

end Answers

namespace Hedge

/-- The deltas are the first ones that a lane yielded. -/
def Yielded (hedge : Hedge T) (deltas : List T) : Prop :=
  ∃ (index : Nat) (lane : Lane T), hedge.lanes[index]? = some lane ∧
    deltas.map .text <+: lane.serial.output

/-- What was yielded, at each stage of the generator. -/
def Fits (hedge : Hedge T) : Prop :=
  match hedge.stage with
  | .pending => hedge.output = [] ∧ ∀ (index : Nat) (lane : Lane T),
      hedge.lanes[index]? = some lane → ∃ taken,
        lane.serial.output = taken ++ waiting index hedge.queue ∧
          ∀ event ∈ taken, event.delta? = none
  | .won winner => ∃ lane deltas, hedge.lanes[winner]? = some lane ∧
      hedge.output = deltas.map .text ∧ deltas ≠ [] ∧
        lane.serial.output = hedge.output ++ waiting winner hedge.queue
  | .returned => ∃ deltas last, hedge.output = deltas.map .text ++ [last] ∧
      last.delta? = none ∧ (deltas ≠ [] → hedge.Yielded deltas ∧ last.late = true)
  | .raised => ∃ deltas, hedge.output = deltas.map .text ∧ (deltas ≠ [] → hedge.Yielded deltas)
  | .interrupted => ∃ deltas, hedge.output = deltas.map .text ∧ (deltas ≠ [] → hedge.Yielded deltas)

/-- The lanes and the queue fit together. -/
structure Base (hedge : Hedge T) : Prop where
  serials : ∀ (index : Nat) (lane : Lane T), hedge.lanes[index]? = some lane → lane.serial.Kept
  known : ∀ entry ∈ hedge.queue, entry.1 < hedge.lanes.length
  /-- A lane that says it is done has ended, and so has one that is not active. -/
  done : ∀ (index : Nat) (lane : Lane T), hedge.lanes[index]? = some lane →
    (∃ entry ∈ hedge.queue, entry.1 = index ∧ entry.2 = .done) ∨ index ∉ hedge.active →
      lane.ended = true

structure Kept (hedge : Hedge T) : Prop extends hedge.Base where
  /-- Once the race is over, every lane but the winner is asked to stop or has ended. -/
  dropped : hedge.stage ≠ .pending → ∀ (index : Nat) (lane : Lane T),
    hedge.lanes[index]? = some lane → hedge.stage ≠ .won index →
      lane.cancelled = true ∨ lane.ended = true
  fits : hedge.Fits

variable {hedge : Hedge T} {request : Request}

/-! ## Lanes that are cancelled -/

theorem getElem?_cancelLanes (hit : Nat → Bool) (lanes : List (Lane T)) (index : Nat) :
    (cancelLanes hit lanes)[index]? = lanes[index]?.map fun lane =>
      if hit index then { lane with cancelled := true } else lane := by
  unfold cancelLanes
  rw [List.getElem?_mapIdx]

theorem length_cancelLanes (hit : Nat → Bool) (lanes : List (Lane T)) :
    (cancelLanes hit lanes).length = lanes.length :=
  List.length_mapIdx

/-- A lane after some were cancelled is a lane before it, with the same generator. -/
theorem cancelLanes_get {hit : Nat → Bool} {lanes : List (Lane T)} {index : Nat} {lane : Lane T}
    (found : (cancelLanes hit lanes)[index]? = some lane) :
    ∃ before, lanes[index]? = some before ∧ lane.serial = before.serial ∧
      lane.ended = before.ended ∧ lane.cancelled = (hit index || before.cancelled) := by
  rw [getElem?_cancelLanes] at found
  obtain ⟨before, stored, rfl⟩ := Option.map_eq_some_iff.mp found
  refine ⟨before, stored, ?_⟩
  split
  · next yes => exact ⟨rfl, rfl, by rw [yes]; rfl⟩
  · next no => exact ⟨rfl, rfl, by rw [Bool.eq_false_iff.mpr no]; rfl⟩

theorem get_cancelLanes (hit : Nat → Bool) {lanes : List (Lane T)} {index : Nat} {lane : Lane T}
    (stored : lanes[index]? = some lane) :
    ∃ after, (cancelLanes hit lanes)[index]? = some after ∧ after.serial = lane.serial := by
  refine ⟨_, by rw [getElem?_cancelLanes, stored, Option.map_some], ?_⟩
  split <;> rfl

/-- Cancelling lanes changes nothing that was put or yielded. -/
theorem Base.cancel (base : hedge.Base) (hit : Nat → Bool) (stage : HedgeStage)
    (output : List (Event T)) :
    Base { hedge with lanes := cancelLanes hit hedge.lanes, stage := stage, output := output } where
  serials index lane found := by
    obtain ⟨before, stored, same, _⟩ := cancelLanes_get found
    rw [same]
    exact base.serials index before stored
  known entry among := by
    rw [length_cancelLanes]
    exact base.known entry among
  done index lane found past := by
    obtain ⟨before, stored, _, ended, _⟩ := cancelLanes_get found
    rw [ended]
    exact base.done index before stored past

theorem Yielded.cancel {deltas : List T} (yielded : hedge.Yielded deltas) (hit : Nat → Bool)
    (stage : HedgeStage) (output : List (Event T)) :
    Yielded { hedge with lanes := cancelLanes hit hedge.lanes, stage := stage, output := output }
      deltas := by
  obtain ⟨index, lane, stored, front⟩ := yielded
  obtain ⟨after, found, same⟩ := get_cancelLanes hit stored
  exact ⟨index, after, found, same ▸ front⟩

theorem leave_dropped (stage : HedgeStage) (index : Nat) (lane : Lane T)
    (found : (hedge.leave stage).lanes[index]? = some lane) :
    lane.cancelled = true ∨ lane.ended = true := by
  obtain ⟨_, _, _, _, cancelled⟩ := cancelLanes_get found
  exact .inl cancelled

/-- The generator ends with a terminal event. -/
theorem Base.finish (base : hedge.Base) {deltas : List T} {last : Event T}
    (output : hedge.output = deltas.map .text) (ending : last.delta? = none)
    (spoken : deltas ≠ [] → hedge.Yielded deltas ∧ last.late = true) :
    ((hedge.say last).leave .returned).Kept where
  toBase := base.cancel _ _ _
  dropped _ index lane found _ := leave_dropped .returned index lane found
  fits := by
    refine ⟨deltas, last, by rw [← output]; rfl, ending, fun some => ?_⟩
    exact ⟨(spoken some).1.cancel _ _ _, (spoken some).2⟩

/-- The generator raises, or is interrupted. -/
theorem Base.stop (base : hedge.Base) {deltas : List T} (output : hedge.output = deltas.map .text)
    (spoken : deltas ≠ [] → hedge.Yielded deltas) {stage : HedgeStage}
    (broken : stage = .raised ∨ stage = .interrupted) : (hedge.leave stage).Kept where
  toBase := base.cancel _ _ hedge.output
  dropped _ index lane found _ := leave_dropped stage index lane found
  fits := by
    rcases broken with rfl | rfl
    · exact ⟨deltas, output, fun some => (spoken some).cancel _ _ hedge.output⟩
    · exact ⟨deltas, output, fun some => (spoken some).cancel _ _ hedge.output⟩

/-! ## A new lane -/

theorem get_append {lanes : List (Lane T)} {fresh lane : Lane T} {index : Nat}
    (found : (lanes ++ [fresh])[index]? = some lane) :
    lanes[index]? = some lane ∨ index = lanes.length ∧ lane = fresh := by
  rcases Nat.lt_trichotomy index lanes.length with below | same | above
  · rw [List.getElem?_append_left below] at found
    exact .inl found
  · subst same
    rw [List.getElem?_concat_length] at found
    cases found
    exact .inr ⟨rfl, rfl⟩
  · rw [List.getElem?_append_right (Nat.le_of_lt above)] at found
    obtain ⟨inside, _⟩ := List.getElem?_eq_some_iff.mp found
    simp only [List.length_singleton] at inside
    omega

theorem Kept.start (kept : hedge.Kept) (pending : hedge.stage = .pending) :
    (hedge.start request).Kept where
  serials index lane found := by
    rcases get_append found with old | ⟨_, rfl⟩
    · exact kept.serials index lane old
    · exact Serial.initial_kept _
  known entry among := by
    have below := kept.known entry among
    change entry.1 < (hedge.lanes ++ [_]).length
    rw [List.length_append]
    exact Nat.lt_add_right 1 below
  done index lane found past := by
    rcases get_append found with old | ⟨rfl, rfl⟩
    · refine kept.done index lane old (past.imp_right fun out inside => out ?_)
      exact List.mem_append_left _ inside
    · rcases past with ⟨entry, among, same, _⟩ | out
      · have below := kept.known entry among
        rw [same] at below
        exact absurd below (Nat.lt_irrefl _)
      · exact absurd (List.mem_append_right _ List.mem_cons_self) out
  dropped past := absurd pending past
  fits := by
    have fits := kept.fits
    unfold Fits at fits ⊢
    rw [pending] at fits
    have same : (hedge.start request).stage = .pending := pending
    rw [same]
    refine ⟨fits.1, fun index lane found => ?_⟩
    rcases get_append found with old | ⟨rfl, rfl⟩
    · exact fits.2 index lane old
    · refine ⟨[], ?_, fun _ absurd => (List.not_mem_nil absurd).elim⟩
      have nothing : waiting hedge.lanes.length hedge.queue = [] :=
        waiting_other fun entry among => Nat.ne_of_lt (kept.known entry among)
      exact nothing.symm

/-! ## What a lane puts -/

/-- The lanes grow by what is put into the queue for them. -/
structure Grows (before after : Hedge T) : Prop where
  stage : after.stage = before.stage
  output : after.output = before.output
  forth : ∀ (index : Nat) (lane : Lane T), before.lanes[index]? = some lane →
    ∃ grown, after.lanes[index]? = some grown
  back : ∀ (index : Nat) (grown : Lane T), after.lanes[index]? = some grown →
    ∃ lane more, before.lanes[index]? = some lane ∧
      grown.serial.output = lane.serial.output ++ more ∧
      waiting index after.queue = waiting index before.queue ++ more

/-- A lane that grows is where it was. -/
theorem Grows.lane {after : Hedge T} (grows : hedge.Grows after) {index : Nat} {lane : Lane T}
    (stored : hedge.lanes[index]? = some lane) :
    ∃ grown more, after.lanes[index]? = some grown ∧
      grown.serial.output = lane.serial.output ++ more ∧
      waiting index after.queue = waiting index hedge.queue ++ more := by
  obtain ⟨grown, there⟩ := grows.forth index lane stored
  obtain ⟨before, more, old, longer, queued⟩ := grows.back index grown there
  rw [stored] at old
  cases old
  exact ⟨grown, more, there, longer, queued⟩

theorem Grows.yielded {after : Hedge T} (grows : hedge.Grows after) {deltas : List T}
    (yielded : hedge.Yielded deltas) : after.Yielded deltas := by
  obtain ⟨index, lane, stored, front⟩ := yielded
  obtain ⟨grown, more, there, longer, _⟩ := grows.lane stored
  exact ⟨index, grown, there, front.trans (longer ▸ List.prefix_append _ more)⟩

/-- What fits goes on fitting as the lanes grow. -/
theorem Grows.fits {after : Hedge T} (grows : hedge.Grows after) (fits : hedge.Fits) :
    after.Fits := by
  unfold Fits at fits ⊢
  rw [grows.stage, grows.output]
  cases stage : hedge.stage with
  | pending =>
    rw [stage] at fits
    refine ⟨fits.1, fun index grown there => ?_⟩
    obtain ⟨lane, more, old, longer, queued⟩ := grows.back index grown there
    obtain ⟨taken, whole, quiet⟩ := fits.2 index lane old
    exact ⟨taken, by rw [longer, queued, whole, List.append_assoc], quiet⟩
  | won winner =>
    rw [stage] at fits
    obtain ⟨lane, deltas, old, output, some, whole⟩ := fits
    obtain ⟨grown, more, there, longer, queued⟩ := grows.lane old
    exact ⟨grown, deltas, there, output, some,
      by rw [longer, queued, whole, List.append_assoc]⟩
  | returned =>
    rw [stage] at fits
    obtain ⟨deltas, last, output, ending, spoken⟩ := fits
    exact ⟨deltas, last, output, ending, fun some =>
      ⟨grows.yielded (spoken some).1, (spoken some).2⟩⟩
  | raised | interrupted =>
    rw [stage] at fits
    obtain ⟨deltas, output, spoken⟩ := fits
    exact ⟨deltas, output, fun some => grows.yielded (spoken some)⟩

/-- A step of a lane's generator, or of its key tasks, puts what it yields. -/
theorem Kept.relay (kept : hedge.Kept) {index : Nat} {lane : Lane T}
    (stored : hedge.lanes[index]? = some lane) (route : Route) (label : SerialLabel T) :
    (hedge.relay index lane (lane.serial.step route label)).Kept := by
  have inside : index < hedge.lanes.length := (List.getElem?_eq_some_iff.mp stored).1
  have serial := kept.serials index lane stored
  obtain ⟨more, grown⟩ : ∃ more, (lane.serial.step route label).output =
      lane.serial.output ++ more := by
    have one : lane.serial.Says (lane.serial.step route label) := serial.yields label
    rcases one with same | ⟨event, same⟩
    · exact ⟨[], same.trans (List.append_nil _).symm⟩
    · exact ⟨[event], same⟩
  generalize next : lane.serial.step route label = after at grown
  have after' : after.Kept := next ▸ serial.step label
  have put : (hedge.relay index lane after).queue =
      hedge.queue ++ more.map fun event => (index, .event event) := by
    unfold Hedge.relay
    rw [grown, List.drop_left]
  have get : ∀ (other : Nat) (found : Lane T),
      (hedge.relay index lane after).lanes[other]? = some found →
        (other = index ∧ found = { lane with serial := after }) ∨
          other ≠ index ∧ hedge.lanes[other]? = some found := by
    intro other found there
    by_cases same : index = other
    · subst same
      change (hedge.lanes.set index _)[index]? = _ at there
      rw [List.getElem?_set_self inside] at there
      cases there
      exact .inl ⟨rfl, rfl⟩
    · change (hedge.lanes.set index _)[other]? = _ at there
      rw [List.getElem?_set_ne same] at there
      exact .inr ⟨fun absurd => same absurd.symm, there⟩
  have queue : ∀ other, waiting other (hedge.relay index lane after).queue =
      waiting other hedge.queue ++ if other = index then more else [] := by
    intro other
    rw [put, waiting_append]
    congr 1
    by_cases same : other = index
    · rw [if_pos same, same, waiting_own]
    · rw [if_neg same]
      refine waiting_other fun entry among => ?_
      obtain ⟨event, _, rfl⟩ := List.mem_map.mp among
      exact fun absurd => same absurd.symm
  have grows : hedge.Grows (hedge.relay index lane after) := by
    refine ⟨rfl, rfl, fun other found there => ?_, fun other found there => ?_⟩
    · by_cases same : index = other
      · subst same
        exact ⟨_, List.getElem?_set_self inside⟩
      · exact ⟨found, (List.getElem?_set_ne same).trans there⟩
    · rcases get other found there with ⟨rfl, rfl⟩ | ⟨apart, old⟩
      · exact ⟨lane, more, stored, grown, by rw [queue, if_pos rfl]⟩
      · exact ⟨found, [], old, (List.append_nil _).symm, by rw [queue, if_neg apart]⟩
  refine ⟨⟨?_, ?_, ?_⟩, ?_, ?_⟩
  · intro other found there
    rcases get other found there with ⟨_, rfl⟩ | ⟨_, old⟩
    · exact after'
    · exact kept.serials other found old
  · intro entry among
    change entry.1 < (hedge.lanes.set index _).length
    rw [List.length_set]
    rw [put] at among
    rcases List.mem_append.mp among with old | fresh
    · exact kept.known entry old
    · obtain ⟨event, _, rfl⟩ := List.mem_map.mp fresh
      exact inside
  · intro other found there past
    have before : (∃ entry ∈ hedge.queue, entry.1 = other ∧ entry.2 = .done) ∨
        other ∉ hedge.active := by
      refine past.imp_left ?_
      rintro ⟨entry, among, same, ending⟩
      rw [put] at among
      rcases List.mem_append.mp among with old | fresh
      · exact ⟨entry, old, same, ending⟩
      · obtain ⟨event, _, rfl⟩ := List.mem_map.mp fresh
        cases ending
    rcases get other found there with ⟨rfl, rfl⟩ | ⟨_, old⟩
    · exact kept.done _ lane stored before
    · exact kept.done other found old before
  · intro past other found there apart
    rcases get other found there with ⟨rfl, rfl⟩ | ⟨_, old⟩
    · exact kept.dropped past _ lane stored apart
    · exact kept.dropped past other found old apart
  · exact grows.fits kept.fits

/-- A lane that is over says so. -/
theorem Kept.close (kept : hedge.Kept) {index : Nat} {lane : Lane T}
    (stored : hedge.lanes[index]? = some lane) {more : List (Nat × Item T)}
    (own : ∀ entry ∈ more, entry.1 = index) (silent : ∀ entry ∈ more, entry.2.event? = none) :
    Kept { hedge with
      lanes := hedge.lanes.set index { lane with ended := true }
      queue := hedge.queue ++ more } := by
  have inside : index < hedge.lanes.length := (List.getElem?_eq_some_iff.mp stored).1
  have get : ∀ (other : Nat) (found : Lane T),
      (hedge.lanes.set index { lane with ended := true })[other]? = some found →
        ∃ before, hedge.lanes[other]? = some before ∧ found.serial = before.serial ∧
          (before.cancelled = true → found.cancelled = true) ∧
          (found.ended = true ∨ other ≠ index ∧ found = before) := by
    intro other found there
    by_cases same : index = other
    · subst same
      rw [List.getElem?_set_self inside] at there
      cases there
      exact ⟨lane, stored, rfl, id, .inl rfl⟩
    · rw [List.getElem?_set_ne same] at there
      exact ⟨found, there, rfl, id, .inr ⟨fun absurd => same absurd.symm, rfl⟩⟩
  have queue : ∀ other, waiting other (hedge.queue ++ more) = waiting other hedge.queue := by
    intro other
    rw [waiting_append, waiting_silent silent, List.append_nil]
  have grows : hedge.Grows { hedge with
      lanes := hedge.lanes.set index { lane with ended := true }
      queue := hedge.queue ++ more } := by
    refine ⟨rfl, rfl, fun other before there => ?_, fun other found there => ?_⟩
    · by_cases same : index = other
      · subst same
        exact ⟨_, List.getElem?_set_self inside⟩
      · exact ⟨before, (List.getElem?_set_ne same).trans there⟩
    · obtain ⟨before, old, same, _⟩ := get other found there
      exact ⟨before, [], old, by rw [same, List.append_nil], by rw [queue, List.append_nil]⟩
  refine ⟨⟨?_, ?_, ?_⟩, ?_, ?_⟩
  · intro other found there
    obtain ⟨before, old, same, _⟩ := get other found there
    rw [same]
    exact kept.serials other before old
  · intro entry among
    change entry.1 < (hedge.lanes.set index _).length
    rw [List.length_set]
    rcases List.mem_append.mp among with old | fresh
    · exact kept.known entry old
    · rw [own entry fresh]
      exact inside
  · intro other found there past
    obtain ⟨before, old, _, _, ended | ⟨apart, rfl⟩⟩ := get other found there
    · exact ended
    · refine kept.done other found old (past.imp_left ?_)
      rintro ⟨entry, among, same, ending⟩
      rcases List.mem_append.mp among with old | fresh
      · exact ⟨entry, old, same, ending⟩
      · exact absurd (same.symm.trans (own entry fresh)) apart
  · intro past other found there apart
    obtain ⟨before, old, _, cancelled, ended | ⟨_, rfl⟩⟩ := get other found there
    · exact .inr ended
    · exact kept.dropped past other found old apart
  · exact grows.fits kept.fits

/-! ## What the loop takes -/

section Loop

variable {index : Nat} {item : Item T} {rest : List (Nat × Item T)}

theorem Base.taken (base : hedge.Base) (queue : hedge.queue = (index, item) :: rest) :
    Base { hedge with queue := rest } where
  serials := base.serials
  known entry among := base.known entry (queue ▸ List.mem_cons_of_mem _ among)
  done other lane found past := by
    refine base.done other lane found (past.imp_left ?_)
    rintro ⟨entry, among, same, ending⟩
    exact ⟨entry, queue ▸ List.mem_cons_of_mem _ among, same, ending⟩

theorem Kept.quiet (kept : hedge.Kept) (pending : hedge.stage = .pending) : hedge.output = [] := by
  have fits := kept.fits
  unfold Fits at fits
  rw [pending] at fits
  exact fits.1

/-- An entry without a text is passed over while nothing was said. -/
theorem Kept.pass (kept : hedge.Kept) (pending : hedge.stage = .pending)
    (queue : hedge.queue = (index, item) :: rest) (silent : item.delta? = none)
    (failures : List StreamFailed) {active : List Nat}
    (fewer : ∀ other, other ∉ active → other ∉ hedge.active ∨ other = index ∧ item = .done) :
    Kept { hedge with queue := rest, failures := failures, active := active } where
  serials := kept.serials
  known := (kept.toBase.taken queue).known
  done other lane found past := by
    rcases past with ⟨entry, among, same, ending⟩ | out
    · exact (kept.toBase.taken queue).done other lane found (.inl ⟨entry, among, same, ending⟩)
    · rcases fewer other out with out | ⟨rfl, rfl⟩
      · exact kept.done other lane found (.inr out)
      · exact kept.done other lane found
          (.inl ⟨_, queue ▸ List.mem_cons_self, rfl, rfl⟩)
  dropped past := absurd pending past
  fits := by
    have fits := kept.fits
    unfold Fits at fits ⊢
    dsimp only
    rw [pending] at fits ⊢
    refine ⟨fits.1, fun other lane found => ?_⟩
    obtain ⟨taken, same, quiet⟩ := fits.2 other lane found
    rw [queue, waiting_cons, ← List.append_assoc] at same
    refine ⟨_, same, fun event among => ?_⟩
    rcases List.mem_append.mp among with old | fresh
    · exact quiet event old
    · split at fresh
      · cases item with
        | event one =>
          rw [List.mem_singleton.mp fresh]
          exact silent
        | _ => exact (List.not_mem_nil fresh).elim
      · exact (List.not_mem_nil fresh).elim

/-- The first text: its lane wins, and the others are asked to stop. -/
theorem Kept.win (kept : hedge.Kept) (pending : hedge.stage = .pending) {delta : T}
    (queue : hedge.queue = (index, .event (.text delta)) :: rest) :
    ({ hedge with queue := rest }.consume request index (.event (.text delta))).Kept := by
  have quiet := kept.quiet pending
  have below : index < hedge.lanes.length :=
    kept.known _ (queue ▸ List.mem_cons_self)
  obtain ⟨lane, stored⟩ : ∃ lane, hedge.lanes[index]? = some lane :=
    ⟨_, List.getElem?_eq_getElem below⟩
  have base := (kept.toBase.taken queue).cancel
    (fun lane => hedge.active.contains lane && lane != index) (.won index)
    (hedge.output ++ [.text delta])
  refine ⟨base, ?_, ?_⟩
  · intro _ other found there apart
    obtain ⟨before, old, _, ended, cancelled⟩ := cancelLanes_get there
    by_cases active : other ∈ hedge.active
    · refine .inl ?_
      rw [cancelled]
      have ne : (other != index) = true := by
        rw [bne_iff_ne]
        rintro rfl
        exact apart rfl
      rw [List.contains_iff_mem.mpr active, ne]
      rfl
    · exact .inr (ended.trans (kept.done other before old (.inr active)))
  · have fits := kept.fits
    unfold Fits at fits
    rw [pending] at fits
    obtain ⟨taken, same, silent⟩ := fits.2 index lane stored
    rw [queue, waiting_cons, if_pos rfl] at same
    have none := Answers.silent (same ▸ (kept.serials index lane stored).answers)
      (List.cons_ne_nil _ _) silent
    rw [none] at same
    obtain ⟨after, found, alike⟩ := get_cancelLanes
      (fun lane => hedge.active.contains lane && lane != index) stored
    refine ⟨after, [delta], found, ?_, List.cons_ne_nil _ _, ?_⟩
    · change hedge.output ++ _ = _
      rw [quiet]
      rfl
    · rw [alike, same]
      change _ = (hedge.output ++ _) ++ _
      rw [quiet]
      rfl

theorem Kept.consume (kept : hedge.Kept) (pending : hedge.stage = .pending)
    (queue : hedge.queue = (index, item) :: rest) :
    ({ hedge with queue := rest }.consume request index item).Kept := by
  have quiet := kept.quiet pending
  have base := kept.toBase.taken queue
  have same : ∀ other, other ∉ hedge.active → other ∉ hedge.active ∨ other = index ∧ item = .done :=
    fun _ out => .inl out
  have silent : ∀ event : Event T, event.delta? = none →
      (({ hedge with queue := rest }.say event).leave .returned).Kept := fun event ending =>
    @Base.finish T { hedge with queue := rest } base [] event quiet ending
      fun absurd => (absurd rfl).elim
  cases item with
  | error =>
    exact @Base.stop T { hedge with queue := rest } base [] quiet
      (fun absurd => (absurd rfl).elim) .raised (.inl rfl)
  | wake => exact kept.pass pending queue rfl hedge.failures same
  | done =>
    have next := @Kept.pass T hedge _ _ _ kept pending queue rfl hedge.failures
      (hedge.active.erase index) (by
      intro other out
      by_cases own : other = index
      · exact .inr ⟨own, rfl⟩
      · exact .inl fun inside => out ((List.mem_erase_of_ne own).mpr inside))
    unfold Hedge.consume
    dsimp only
    split
    · exact next.start pending
    · exact next
  | event event =>
    cases event with
    | text delta => exact kept.win pending queue
    | completed =>
      exact kept.pass pending queue rfl _ same
    | failed failure =>
      unfold Hedge.consume
      dsimp only
      split
      · exact silent (.failed failure) rfl
      · exact kept.pass pending queue rfl _ same
    | deferred task => exact silent (.deferred task) rfl

/-- An entry of another lane is passed over behind the first text. -/
theorem Kept.skip (kept : hedge.Kept) {winner : Nat} (won : hedge.stage = .won winner)
    (queue : hedge.queue = (index, item) :: rest) (other : index ≠ winner) :
    Kept { hedge with queue := rest } where
  toBase := kept.toBase.taken queue
  dropped := kept.dropped
  fits := by
    have fits := kept.fits
    unfold Fits at fits ⊢
    dsimp only
    rw [won] at fits ⊢
    obtain ⟨lane, deltas, found, output, some, same⟩ := fits
    rw [queue, waiting_cons, if_neg other, List.nil_append] at same
    exact ⟨lane, deltas, found, output, some, same⟩

/-- What the winner yields is yielded. -/
theorem Kept.forward (kept : hedge.Kept) {winner : Nat} (won : hedge.stage = .won winner)
    (queue : hedge.queue = (winner, item) :: rest) :
    ({ hedge with queue := rest }.forward item).Kept := by
  have base := kept.toBase.taken queue
  have fits := kept.fits
  unfold Fits at fits
  rw [won] at fits
  obtain ⟨lane, deltas, found, output, some, same⟩ := fits
  rw [queue, waiting_cons, if_pos rfl] at same
  have yielded : Yielded { hedge with queue := rest } deltas := by
    refine ⟨winner, lane, found, ?_⟩
    rw [same, ← output]
    exact List.prefix_append _ _
  have stop : ({ hedge with queue := rest }.leave .raised).Kept :=
    @Base.stop T { hedge with queue := rest } base deltas output (fun _ => yielded) .raised
      (.inl rfl)
  cases item with
  | event event =>
    have answers := (kept.serials winner lane found).answers
    have ending : event.delta? = none →
        (({ hedge with queue := rest }.say event).leave .returned).Kept := by
      intro ending
      have front : deltas.map .text ++ [event] <+: lane.serial.output := by
        rw [same, output, ← List.append_assoc]
        exact List.prefix_append _ _
      have first := answers.shorter (fun _ _ said front => said.shorter front) front
      exact @Base.finish T { hedge with queue := rest } base deltas event output ending
        fun some => ⟨yielded, (first.late ending some).2⟩
    cases event with
    | text delta =>
      refine ⟨⟨base.serials, base.known, base.done⟩, kept.dropped, ?_⟩
      change Fits { hedge with queue := rest, output := hedge.output ++ [.text delta] }
      unfold Fits
      dsimp only
      rw [won]
      refine ⟨lane, deltas ++ [delta], found, ?_, ?_, ?_⟩
      · rw [output, List.map_append]
        rfl
      · exact List.append_ne_nil_of_left_ne_nil some _
      · rw [same, List.append_assoc]
        rfl
    | completed | failed | deferred => exact ending rfl
  | error | wake | done => exact stop

end Loop

/-! ## A run of the generator -/

theorem Kept.turn (kept : hedge.Kept) (request : Request) : (hedge.turn request).Kept := by
  unfold Hedge.turn
  split
  · next pending =>
      have quiet := kept.quiet pending
      split
      · exact @Base.finish T hedge kept.toBase [] _ quiet rfl fun absurd => (absurd rfl).elim
      · split
        · exact kept.start pending
        · split
          · exact kept
          · next index item rest queue => exact kept.consume pending queue
  · next winner won =>
      split
      · exact kept
      · next index item rest queue =>
          split
          · next own =>
              subst own
              exact kept.forward won queue
          · next other => exact kept.skip won queue other
  · exact kept

/-- What was said so far, while the generator has not returned. -/
theorem Kept.spoken (kept : hedge.Kept) (unfinished : hedge.stage ≠ .returned) :
    ∃ deltas, hedge.output = deltas.map .text ∧ (deltas ≠ [] → hedge.Yielded deltas) := by
  have fits := kept.fits
  unfold Fits at fits
  cases stage : hedge.stage with
  | pending =>
    rw [stage] at fits
    exact ⟨[], fits.1, fun absurd => (absurd rfl).elim⟩
  | won winner =>
    rw [stage] at fits
    obtain ⟨lane, deltas, found, output, _, same⟩ := fits
    refine ⟨deltas, output, fun _ => ⟨winner, lane, found, ?_⟩⟩
    rw [same, ← output]
    exact List.prefix_append _ _
  | returned => exact absurd stage unfinished
  | raised | interrupted =>
    rw [stage] at fits
    exact fits

/-- Every step of the generator, of its lanes and of their key tasks keeps the answer. -/
theorem Kept.step (kept : hedge.Kept) (request : Request) (label : HedgeLabel T) :
    (hedge.step request label).Kept := by
  cases label with
  | admission allowed =>
    dsimp only [Hedge.step]
    split
    · next fresh =>
        split
        · have started := @Kept.start T hedge request kept fresh.1
          exact ⟨⟨started.serials, started.known, started.done⟩, started.dropped, started.fits⟩
        · exact @Base.finish T hedge kept.toBase [] _ (kept.quiet fresh.1) rfl
            fun absurd => (absurd rfl).elim
    · exact kept
  | lane index label =>
    dsimp only [Hedge.step]
    split
    · next lane stored =>
        split
        · exact kept
        · exact kept.relay stored _ label
    · exact kept
  | unwind index =>
    dsimp only [Hedge.step]
    split
    · next lane stored =>
        split
        · exact kept.relay stored _ .interrupt
        · exact kept
    · exact kept
  | close index =>
    dsimp only [Hedge.step]
    split
    · next lane stored =>
        split
        · refine kept.close stored ?_ ?_
          · intro entry among
            split at among <;>
              simp only [List.mem_cons, List.not_mem_nil, or_false] at among
            · rcases among with rfl | rfl <;> rfl
            · rw [among]
          · intro entry among
            split at among <;>
              simp only [List.mem_cons, List.not_mem_nil, or_false] at among
            · rcases among with rfl | rfl <;> rfl
            · rw [among]
              rfl
        · exact kept
    · exact kept
  | turn =>
    dsimp only [Hedge.step]
    split
    · exact kept
    · exact kept.turn request
  | timer expired =>
    dsimp only [Hedge.step]
    split
    · next waits =>
        split
        · exact @Base.finish T hedge kept.toBase [] _ (kept.quiet waits.1) rfl
            fun absurd => (absurd rfl).elim
        · split
          · exact kept.start waits.1
          · exact kept
    · exact kept
  | interrupt =>
    dsimp only [Hedge.step]
    split
    · exact kept
    · next going =>
        obtain ⟨deltas, output, spoken⟩ := kept.spoken fun absurd => going (.inl absurd)
        exact kept.toBase.stop output spoken (.inr rfl)

/-! ## What a step says and starts -/

/-- One event is yielded at most. -/
def Says (before after : Hedge T) : Prop :=
  after.output = before.output ∨ ∃ event, after.output = before.output ++ [event]

theorem consume_yields (index : Nat) (item : Item T) :
    hedge.Says (hedge.consume request index item) := by
  have same : hedge.Says hedge := .inl rfl
  cases item with
  | error => exact .inl rfl
  | wake => exact same
  | done =>
    unfold Hedge.consume
    dsimp only
    split <;> exact .inl rfl
  | event event =>
    cases event with
    | text delta => exact .inr ⟨_, rfl⟩
    | completed => exact .inl rfl
    | failed failure =>
      unfold Hedge.consume
      dsimp only
      split
      · exact .inr ⟨_, rfl⟩
      · exact .inl rfl
    | deferred task => exact .inr ⟨_, rfl⟩

theorem forward_yields (item : Item T) : hedge.Says (hedge.forward item) := by
  cases item with
  | event event =>
    cases event with
    | text | completed | failed | deferred => exact .inr ⟨_, rfl⟩
  | _ => exact .inl rfl

theorem step_yields (label : HedgeLabel T) : hedge.Says (hedge.step request label) := by
  have same : hedge.Says hedge := .inl rfl
  cases label with
  | admission allowed =>
    dsimp only [Hedge.step]
    split
    · split
      · exact .inl rfl
      · exact .inr ⟨_, rfl⟩
    · exact same
  | lane | unwind | close =>
    dsimp only [Hedge.step]
    split
    · split <;> exact .inl rfl
    · exact same
  | turn =>
    dsimp only [Hedge.step, Hedge.turn]
    split
    · exact same
    · split
      · split
        · exact .inr ⟨_, rfl⟩
        · split
          · exact .inl rfl
          · split
            · exact same
            · exact @consume_yields T { hedge with queue := _ } request _ _
      · split
        · exact same
        · split
          · exact @forward_yields T { hedge with queue := _ } _
          · exact .inl rfl
      · exact same
  | timer expired =>
    dsimp only [Hedge.step]
    split
    · split
      · exact .inr ⟨_, rfl⟩
      · split <;> exact .inl rfl
    · exact same
  | interrupt =>
    dsimp only [Hedge.step]
    split <;> exact .inl rfl

/--
No lane is started, and no provider is called in a lane, unless the lane is
asked to stop while it is before or in a race.
-/
def Starts (before after : Hedge T) : Prop :=
  after.lanes.length = before.lanes.length ∧
    ∀ (index : Nat) (lane : Lane T), before.lanes[index]? = some lane →
      ∃ next : Lane T, after.lanes[index]? = some next ∧
        (next.serial.dispatched = lane.serial.dispatched ∨ lane.cancelled = true ∧
            (lane.serial.stage = .routing ∨ lane.serial.stage = .racing))

theorem starts_of_cancel {after : Hedge T} {hit : Nat → Bool}
    (lanes : after.lanes = cancelLanes hit hedge.lanes) : hedge.Starts after := by
  refine ⟨by rw [lanes, length_cancelLanes], fun index lane stored => ?_⟩
  obtain ⟨next, found, same⟩ := get_cancelLanes hit stored
  exact ⟨next, by rw [lanes, found], .inl (by rw [same])⟩

theorem starts_of_same {after : Hedge T} (lanes : after.lanes = hedge.lanes) :
    hedge.Starts after :=
  ⟨by rw [lanes], fun index lane stored => ⟨lane, by rw [lanes, stored], .inl rfl⟩⟩

theorem starts_of_set {after : Hedge T} {index : Nat} {lane next : Lane T}
    (stored : hedge.lanes[index]? = some lane) (lanes : after.lanes = hedge.lanes.set index next)
    (same : next.serial.dispatched = lane.serial.dispatched ∨
      lane.cancelled = true ∧ (lane.serial.stage = .routing ∨ lane.serial.stage = .racing)) :
    hedge.Starts after := by
  have inside : index < hedge.lanes.length := (List.getElem?_eq_some_iff.mp stored).1
  refine ⟨by rw [lanes, List.length_set], fun other found there => ?_⟩
  by_cases own : index = other
  · subst own
    rw [stored] at there
    cases there
    exact ⟨next, by rw [lanes, List.getElem?_set_self inside], same⟩
  · exact ⟨found, by rw [lanes, List.getElem?_set_ne own, there], .inl rfl⟩

/-- Behind the first event a lane calls no provider, or it is asked to stop and still races. -/
theorem Kept.lane_over (kept : hedge.Kept) (past : hedge.stage ≠ .pending) {index : Nat}
    {lane : Lane T} (stored : hedge.lanes[index]? = some lane) (going : lane.ended = false)
    (route : Route) (label : SerialLabel T) :
    (lane.serial.step route label).dispatched = lane.serial.dispatched ∨
      lane.cancelled = true ∧ (lane.serial.stage = .routing ∨ lane.serial.stage = .racing) := by
  have serial := kept.serials index lane stored
  by_cases racing : lane.serial.stage = .routing ∨ lane.serial.stage = .racing
  · by_cases won : hedge.stage = .won index
    · have fits := kept.fits
      unfold Fits at fits
      rw [won] at fits
      obtain ⟨winner, deltas, there, output, some, same⟩ := fits
      rw [stored] at there
      cases there
      refine .inl (serial.settled ?_ label).2
      rw [same, output]
      exact List.append_ne_nil_of_left_ne_nil (fun none => some (List.map_eq_nil_iff.mp none)) _
    · rcases kept.dropped past index lane stored won with cancelled | ended
      · exact .inr ⟨cancelled, racing⟩
      · rw [going] at ended
        cases ended
  · exact .inl (serial.past (fun stage => racing (.inl stage))
      (fun stage => racing (.inr stage)) label).2

/-- What a step starts once something was yielded. -/
theorem Kept.settled (kept : hedge.Kept) (spoken : hedge.output ≠ []) (label : HedgeLabel T) :
    hedge.Starts (hedge.step request label) := by
  have past : hedge.stage ≠ .pending := fun pending => spoken (kept.quiet pending)
  have same : hedge.Starts hedge := starts_of_same rfl
  cases label with
  | admission allowed =>
    dsimp only [Hedge.step]
    rw [if_neg fun fresh => past fresh.1]
    exact same
  | lane index label =>
    dsimp only [Hedge.step]
    split
    · next lane stored =>
        split
        · exact same
        · next free =>
            refine starts_of_set stored rfl (kept.lane_over past stored ?_ _ label)
            exact (Bool.or_eq_false_iff.mp (Bool.eq_false_iff.mpr free)).1
    · exact same
  | unwind index =>
    dsimp only [Hedge.step]
    split
    · next lane stored =>
        split
        · next free =>
            refine starts_of_set stored rfl
              (kept.lane_over past stored ?_ (request.lane index) .interrupt)
            have going := (Bool.and_eq_true_iff.mp free).2
            rwa [Bool.not_eq_true'] at going
        · exact same
    · exact same
  | close index =>
    dsimp only [Hedge.step]
    split
    · next lane stored =>
        split
        · exact starts_of_set stored rfl (.inl rfl)
        · exact same
    · exact same
  | turn =>
    dsimp only [Hedge.step, Hedge.turn]
    split
    · exact same
    · split
      · next pending => exact absurd pending past
      · split
        · exact same
        · split
          · next item _ _ _ =>
              have raised : hedge.Starts (hedge.leave .raised) := starts_of_cancel rfl
              cases item with
              | event event =>
                cases event with
                | text delta => exact starts_of_same rfl
                | completed | failed | deferred => exact starts_of_cancel rfl
              | _ => exact starts_of_cancel rfl
          · exact starts_of_same rfl
      · exact same
  | timer expired =>
    dsimp only [Hedge.step]
    rw [if_neg fun waits => past waits.1]
    exact same
  | interrupt =>
    dsimp only [Hedge.step]
    split
    · exact same
    · exact starts_of_cancel rfl

/-! ## The answer -/

/-- The deltas are the first ones of one call in a lane. -/
def Said (hedge : Hedge T) (deltas : List T) : Prop :=
  ∃ (index : Nat) (lane : Lane T), hedge.lanes[index]? = some lane ∧ lane.serial.Said deltas

/-- What a lane yielded was said by one of its calls. -/
theorem Kept.said (kept : hedge.Kept) {deltas : List T} (yielded : hedge.Yielded deltas)
    (some : deltas ≠ []) : hedge.Said deltas := by
  obtain ⟨index, lane, stored, front⟩ := yielded
  have answers := (kept.serials index lane stored).answers
  have first := answers.shorter (fun _ _ said front => Serial.Said.shorter said front) front
  exact ⟨index, lane, stored, first.said some⟩

/-- The generator answers with the deltas of one call. -/
theorem Kept.answers (kept : hedge.Kept) : Answers hedge.Said hedge.output := by
  by_cases returned : hedge.stage = .returned
  · have fits := kept.fits
    unfold Fits at fits
    rw [returned] at fits
    obtain ⟨deltas, last, output, ending, spoken⟩ := fits
    exact ⟨deltas, [last], output, .inr ⟨last, rfl, ending, fun some => (spoken some).2⟩,
      fun some => kept.said (spoken some).1 some⟩
  · obtain ⟨deltas, output, yielded⟩ := kept.spoken returned
    exact ⟨deltas, [], output.trans (List.append_nil _).symm, .inl rfl,
      fun some => kept.said (yielded some) some⟩

theorem Kept.complete (kept : hedge.Kept) (returned : hedge.stage = .returned) :
    Complete hedge.output := by
  have fits := kept.fits
  unfold Fits at fits
  rw [returned] at fits
  obtain ⟨_, last, output, ending, _⟩ := fits
  exact ⟨last, output ▸ List.mem_append_right _ List.mem_cons_self, ending⟩

theorem initial_kept (checksRate : Bool) : (Hedge.initial checksRate : Hedge T).Kept where
  serials _ _ found := nomatch found
  known _ absurd := (List.not_mem_nil absurd).elim
  done _ _ found := nomatch found
  dropped past := absurd rfl past
  fits := ⟨rfl, fun _ _ found => nomatch found⟩

end Hedge

end BobbyBotique.Router
