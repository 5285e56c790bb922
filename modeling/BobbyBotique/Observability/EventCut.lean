import BobbyBotique.Observability.Disclosure
import BobbyBotique.Observability.EventBudget

/-!
# Events that are cut to size

The loop of `enforce_event_budget` ends below the limit exactly for the events of which
one of three reduced forms has room.  Where none has, it returns too large an event or,
once the message is cut, goes round for ever.
-/

namespace BobbyBotique.Observability

attribute [local instance] lawful_letters

/-! ## Reduced forms -/

/-- The root-cause fields that are not taken away, each cut in its way, and the marks. -/
def reduced (floatText : UInt64 → Text) (away : List Text) (cut : Text → JsonValue → JsonValue)
    (event : Fields) : Fields :=
  (rootCauseFields.filterMap fun name =>
    if name ∈ away then none
    else (givenField event name).map fun value => (name, cut name value)) ++ marks floatText event

/-- How fields are cut at first. -/
def firstCut (name : Text) (value : JsonValue) : JsonValue :=
  if name = exceptionField then rootCause value
  else if name = messageField then cutText 256 truncatedEnd value
  else value

/-- How fields are cut when one frame is left of a stack. -/
def frameCut (name : Text) (value : JsonValue) : JsonValue :=
  if name = exceptionField then cutStack (fun _ => 1) (rootCause value) else firstCut name value

/-- How fields are cut when the message is cut again. -/
def lastCut (name : Text) (value : JsonValue) : JsonValue :=
  if name = messageField then cutText 32 ['…'] (firstCut name value) else frameCut name value

/-- The forms that an event has at the start of the loop, without its removable fields,
and with the shortest message. -/
def reducedForms (floatText : UInt64 → Text) (event : Fields) : List Fields :=
  [reduced floatText [] firstCut event, reduced floatText removableFields frameCut event,
    reduced floatText removableFields lastCut event]

/-- The fields without those that the loop removes, and with the last frame of the stack. -/
def bare (fields : Fields) : Fields :=
  (changeField exceptionField (cutStack fun _ => 1) fields).filter fun field =>
    decide (field.1 ∉ removableFields)

/-- The bare fields with the shortest message. -/
def short (fields : Fields) : Fields := changeField messageField (cutText 32 ['…']) (bare fields)

/-! ## One round -/

section Round

variable {floatText : UInt64 → Text} {fields smaller : Fields} {name : Text}

/-- What a round does. -/
inductive Shrinks (fields : Fields) : Fields → Prop
  | stack : ((lookup exceptionField fields).bind longStack).isSome →
      Shrinks fields (changeField exceptionField (cutStack halfStack) fields)
  | field {removable : Text} {value : JsonValue} :
      (lookup exceptionField fields).bind longStack = none → removable ∈ removableFields →
      lookup removable fields = some value → Shrinks fields (popField removable fields)
  | message : (lookup exceptionField fields).bind longStack = none →
      (∀ removable ∈ removableFields, lookup removable fields = none) →
      ∀ message : Text, lookup messageField fields = some (.text message) → 32 < message.length →
      Shrinks fields (changeField messageField (cutText 32 ['…']) fields)

theorem shrink_shrinks (found : shrink fields = some smaller) : Shrinks fields smaller := by
  unfold shrink at found
  split at found
  · next long =>
      cases found
      exact .stack long
  · next long =>
      have settled : (lookup exceptionField fields).bind longStack = none := by simpa using long
      split at found
      · next removable there =>
          cases found
          have member := List.mem_of_find?_eq_some there
          have present := @List.find?_some _ (fun name => (lookup name fields).isSome) _ _ there
          obtain ⟨value, held⟩ := Option.isSome_iff_exists.mp present
          exact .field settled member held
      · next absent =>
          have gone : ∀ removable ∈ removableFields, lookup removable fields = none := by
            intro removable member
            have nothing := List.find?_eq_none.mp absent removable member
            simpa using nothing
          split at found
          · next message held =>
              split at found
              · next long =>
                  cases found
                  have same : setField messageField (.text (message.take 32 ++ ['…'])) fields =
                      changeField messageField (cutText 32 ['…']) fields := by
                    rw [changeField, held]
                    dsimp only
                    rw [cutText, if_pos long]
                  rw [same]
                  exact .message settled gone message held long
              · cases found
          · cases found

/-- Where the loop breaks. -/
structure Still (fields : Fields) : Prop where
  settled : (lookup exceptionField fields).bind longStack = none
  gone : ∀ removable ∈ removableFields, lookup removable fields = none
  brief : ∀ message : Text, lookup messageField fields = some (.text message) → message.length ≤ 32

theorem shrink_still (stops : shrink fields = none) : Still fields := by
  unfold shrink at stops
  split at stops
  · cases stops
  · next long =>
      split at stops
      · cases stops
      · next absent =>
          refine ⟨by simpa using long, ?_, ?_⟩
          · intro removable member
            have nothing := List.find?_eq_none.mp absent removable member
            simpa using nothing
          · intro message held
            rw [held] at stops
            dsimp only at stops
            split at stops
            · cases stops
            · next brief => omega

/-! ## The bare form of what is on the way -/

theorem removable_ne (member : name ∈ removableFields) :
    name ≠ exceptionField ∧ name ≠ messageField ∧ name ≠ eventTruncated := by
  have all : removableFields.all (fun name => decide (name ≠ exceptionField ∧
      name ≠ messageField ∧ name ≠ eventTruncated)) = true := by decide
  exact of_decide_eq_true (List.all_eq_true.mp all name member)

theorem kept_message : decide (messageField ∉ removableFields) = true := by decide

theorem bare_settled (settled : (lookup exceptionField fields).bind longStack = none)
    (gone : ∀ removable ∈ removableFields, lookup removable fields = none) :
    bare fields = fields := by
  have same : changeField exceptionField (cutStack fun _ => 1) fields = fields := by
    refine changeField_self fun value held => ?_
    rw [held] at settled
    exact cutStack_short settled
  rw [bare, same]
  refine List.filter_eq_self.mpr fun field member => ?_
  refine decide_eq_true fun removable => ?_
  exact lookup_none (gone _ removable) member rfl

theorem bare_stack :
    bare (changeField exceptionField (cutStack halfStack) fields) = bare fields := by
  rw [bare, bare, changeField_twice]
  congr 1
  exact changeField_congr fun value _ => cutStack_last value

theorem bare_pop (member : name ∈ removableFields) : bare (popField name fields) = bare fields := by
  have kept : decide (exceptionField ≠ name) = true := decide_eq_true (removable_ne member).1.symm
  have moved := @filter_changeField exceptionField fields (cutStack fun _ => 1)
    (fun other => decide (other ≠ name)) kept
  rw [bare, popField, ← moved, List.filter_filter, bare]
  refine List.filter_congr fun field _ => ?_
  by_cases removable : field.1 ∈ removableFields
  · simp [removable]
  · have apart : field.1 ≠ name := by
      intro same
      exact removable (same ▸ member)
    simp [removable, apart]

theorem Still.bare (still : Still fields) : bare fields = fields :=
  bare_settled still.settled still.gone

theorem Still.short (still : Still fields) : short fields = fields := by
  rw [Observability.short, still.bare]
  refine changeField_self fun value held => ?_
  cases value with
  | text message =>
    have brief := still.brief message held
    rw [cutText, if_neg (by omega)]
  | scalar | list | object => rfl

/-- Fields that hold the mark of a truncated event. -/
def Marked (fields : Fields) : Prop := lookup eventTruncated fields = some (.scalar (.bool true))

theorem Marked.ne_nil (marked : Marked fields) : fields ≠ [] := by
  rintro rfl
  cases marked

theorem Marked.changeField (marked : Marked fields) {change : JsonValue → JsonValue}
    (apart : name ≠ eventTruncated) : Marked (changeField name change fields) := by
  rw [Marked, lookup_changeField_other apart]
  exact marked

theorem Marked.popField (marked : Marked fields) (apart : name ≠ eventTruncated) :
    Marked (popField name fields) := by
  have kept : decide (eventTruncated ≠ name) = true := decide_eq_true apart.symm
  rw [Marked, Observability.popField]
  have stands := @lookup_filter eventTruncated fields (fun other => decide (other ≠ name)) kept
  exact stands.trans marked

theorem Marked.bare (marked : Marked fields) : Marked (bare fields) := by
  have kept : decide (eventTruncated ∉ removableFields) = true := by decide
  rw [Marked, Observability.bare]
  have stands := @lookup_filter eventTruncated
    (Observability.changeField exceptionField (cutStack fun _ => 1) fields)
    (fun other => decide (other ∉ removableFields)) kept
  exact stands.trans (marked.changeField (by decide))

theorem Shrinks.marked (shrinks : Shrinks fields smaller) (marked : Marked fields) :
    Marked smaller := by
  cases shrinks with
  | stack long => exact marked.changeField (by decide)
  | field settled member held => exact marked.popField (removable_ne member).2.2
  | message settled gone message held long => exact marked.changeField (by decide)

/-- After a first cut of the stack the bare form is no longer. -/
theorem bare_stack_size (marked : Marked fields) :
    jsonSize floatText (bare fields) ≤
      jsonSize floatText (changeField exceptionField (cutStack halfStack) fields) := by
  have halved : Marked (changeField exceptionField (cutStack halfStack) fields) :=
    marked.changeField (by decide)
  rw [jsonSize_eq marked.bare.ne_nil, jsonSize_eq halved.ne_nil, bare]
  refine Nat.le_trans (fieldsSize_filter _ _) ?_
  cases held : lookup exceptionField fields with
  | none =>
    rw [changeField, held, changeField, held]
  | some value =>
    rw [changeField, held, changeField, held]
    dsimp only
    have first := @fieldsSize_setField floatText fields _ (cutStack (fun _ => 1) value) _ held
    have second := @fieldsSize_setField floatText fields _ (cutStack halfStack value) _ held
    have sizes := cutStack_last_size floatText value
    omega

theorem bare_settled_size (marked : Marked fields)
    (settled : (lookup exceptionField fields).bind longStack = none) :
    jsonSize floatText (bare fields) ≤ jsonSize floatText fields := by
  have same : changeField exceptionField (cutStack fun _ => 1) fields = fields := by
    refine changeField_self fun value held => ?_
    rw [held] at settled
    exact cutStack_short settled
  rw [jsonSize_eq marked.bare.ne_nil, jsonSize_eq marked.ne_nil, bare, same]
  exact fieldsSize_filter _ _

/-! ## The loop -/

/-- The frames that can still be dropped. -/
def frames (fields : Fields) : Nat :=
  match (lookup exceptionField fields).bind longStack with
  | some (_, stack) => stack.length
  | none => 0

theorem frames_stack (long : ((lookup exceptionField fields).bind longStack).isSome) :
    frames (changeField exceptionField (cutStack halfStack) fields) < frames fields := by
  obtain ⟨⟨exception, stack⟩, found⟩ := Option.isSome_iff_exists.mp long
  obtain ⟨value, held, long⟩ := Option.bind_eq_some_iff.mp found
  obtain ⟨-, -, more⟩ := longStack_some long
  have bounds := halfStack_bounds more
  rw [frames, frames, found, lookup_changeField_same, held, Option.map_some, Option.bind_some,
    cutStack_long long, longStack_withStack]
  dsimp only
  split
  · next found =>
      split at found
      · cases found
        rw [List.length_drop]
        omega
      · cases found
  · omega

theorem popField_length {value : JsonValue} (held : lookup name fields = some value) :
    (popField name fields).length < fields.length := by
  refine List.length_filter_lt_length_iff_exists.mpr ⟨(name, value), lookup_mem held, ?_⟩
  simp

/-- The loop ends with an event that is not too large. -/
def EndsSmall (floatText : UInt64 → Text) (maxBytes : Nat) (fields : Fields) : Prop :=
  ∃ rounds result, shrinkLoop floatText maxBytes rounds fields = some result ∧
    jsonSize floatText result ≤ maxBytes

variable {maxBytes rounds : Nat}

theorem endsSmall_fits (fits : jsonSize floatText fields ≤ maxBytes) :
    EndsSmall floatText maxBytes fields := ⟨1, fields, if_pos fits, fits⟩

theorem endsSmall_step (large : ¬ jsonSize floatText fields ≤ maxBytes)
    (found : shrink fields = some smaller) :
    EndsSmall floatText maxBytes fields ↔ EndsSmall floatText maxBytes smaller := by
  constructor
  · rintro ⟨rounds, result, ended, fits⟩
    cases rounds with
    | zero => cases ended
    | succ rounds =>
      rw [shrinkLoop, if_neg large, found] at ended
      exact ⟨rounds, result, ended, fits⟩
  · rintro ⟨rounds, result, ended, fits⟩
    refine ⟨rounds + 1, result, ?_, fits⟩
    rw [shrinkLoop, if_neg large, found]
    exact ended

/-- The loop that has come to a fixed event that is too large does not end. -/
theorem shrinkLoop_stuck (large : ¬ jsonSize floatText fields ≤ maxBytes)
    (found : shrink fields = some fields) (rounds : Nat) :
    shrinkLoop floatText maxBytes rounds fields = none := by
  induction rounds with
  | zero => rfl
  | succ rounds ih =>
    rw [shrinkLoop, if_neg large, found]
    exact ih

/-- A message that was cut to its shortest is cut to the same text. -/
theorem shrink_message (settled : (lookup exceptionField fields).bind longStack = none)
    (gone : ∀ removable ∈ removableFields, lookup removable fields = none) {message : Text}
    (held : lookup messageField fields = some (.text message)) (long : 32 < message.length) :
    shrink (changeField messageField (cutText 32 ['…']) fields) =
      some (changeField messageField (cutText 32 ['…']) fields) := by
  have settled' : (lookup exceptionField
      (changeField messageField (cutText 32 ['…']) fields)).bind longStack = none := by
    rw [lookup_changeField_other (by decide)]
    exact settled
  have gone' : ∀ removable ∈ removableFields,
      lookup removable (changeField messageField (cutText 32 ['…']) fields) = none := by
    intro removable member
    rw [lookup_changeField_other (removable_ne member).2.1.symm]
    exact gone removable member
  have cut : lookup messageField (changeField messageField (cutText 32 ['…']) fields) =
      some (.text (message.take 32 ++ ['…'])) := by
    rw [lookup_changeField_same, held, Option.map_some, cutText, if_pos long]
  have count : (message.take 32 ++ ['…']).length = 33 := by
    rw [List.length_append, List.length_take]
    simp
    omega
  have same : (message.take 32 ++ ['…']).take 32 = message.take 32 := by
    rw [List.take_append_of_le_length (by rw [List.length_take]; omega), List.take_take]
    rfl
  have none : (removableFields.find? fun name => (lookup name
      (changeField messageField (cutText 32 ['…']) fields)).isSome) = none := by
    refine List.find?_eq_none.mpr fun removable member => ?_
    rw [gone' removable member]
    simp
  rw [shrink, settled', none, cut]
  dsimp only [Option.isSome_none]
  rw [if_neg (by decide), if_pos (by omega), same]
  exact congrArg some (setField_self cut)

/-- The loop ends below the limit exactly if the event, its bare form or its short form
is not above it. -/
theorem endsSmall_iff (marked : Marked fields) :
    EndsSmall floatText maxBytes fields ↔ jsonSize floatText fields ≤ maxBytes ∨
      jsonSize floatText (bare fields) ≤ maxBytes ∨
      jsonSize floatText (short fields) ≤ maxBytes := by
  induction weight : fields.length + frames fields using Nat.strongRecOn generalizing fields with
  | ind weight ih =>
    by_cases fits : jsonSize floatText fields ≤ maxBytes
    · exact ⟨fun _ => .inl fits, fun _ => endsSmall_fits fits⟩
    cases found : shrink fields with
    | none =>
      have still := shrink_still found
      rw [still.bare, still.short, or_self, or_self]
      refine ⟨?_, fun room => absurd room fits⟩
      rintro ⟨rounds, result, ended, room⟩
      cases rounds with
      | zero => cases ended
      | succ rounds =>
        rw [shrinkLoop, if_neg fits, found] at ended
        cases ended
        exact room
    | some smaller =>
      rw [endsSmall_step fits found]
      have shrinks := shrink_shrinks found
      have next := shrinks.marked marked
      cases shrinks with
      | stack long =>
        have fewer := frames_stack long
        have after := ih _ (by rw [changeField_length]; omega) next rfl
        have room := @bare_stack_size floatText fields marked
        have forms : short (changeField exceptionField (cutStack halfStack) fields) =
            short fields := by rw [short, bare_stack, short]
        rw [after, bare_stack, forms]
        grind
      | @field removable value settled member held =>
        have fewer := popField_length held
        have kept : decide (exceptionField ≠ removable) = true :=
          decide_eq_true (removable_ne member).1.symm
        have stands : lookup exceptionField (popField removable fields) =
            lookup exceptionField fields :=
          @lookup_filter exceptionField fields (fun other => decide (other ≠ removable)) kept
        have same : frames (popField removable fields) = frames fields := by
          rw [frames, stands, frames]
        have after := ih _ (by omega) next rfl
        have room := @bare_settled_size floatText _ next (stands ▸ settled)
        have forms : short (popField removable fields) = short fields := by
          rw [short, bare_pop member, short]
        rw [bare_pop member] at room
        rw [after, bare_pop member, forms]
        grind
      | message settled gone message held long =>
        have stays := shrink_message settled gone held long
        have bared := bare_settled settled gone
        have form : short fields = changeField messageField (cutText 32 ['…']) fields := by
          rw [short, bared]
        rw [bared, form]
        constructor
        · rintro ⟨rounds, result, ended, room⟩
          by_contra large
          have never := @shrinkLoop_stuck floatText _ maxBytes (fun room =>
            large (.inr (.inr room))) stays rounds
          rw [never] at ended
          cases ended
        · rintro (room | room | room)
          · exact absurd room fits
          · exact absurd room fits
          · exact endsSmall_fits room

end Round

/-! ## What the processor keeps -/

section Kept

variable {floatText : UInt64 → Text} {event fields smaller result : Fields} {name : Text}

/-- A name whose field the loop leaves alone. -/
structure Untouched (name : Text) : Prop where
  exception : name ≠ exceptionField
  message : name ≠ messageField
  kept : name ∉ removableFields

theorem Shrinks.lookup (shrinks : Shrinks fields smaller) (untouched : Untouched name) :
    lookup name smaller = lookup name fields := by
  cases shrinks with
  | stack long => exact lookup_changeField_other untouched.exception.symm
  | @field removable value settled member held =>
    have kept : decide (name ≠ removable) = true := by
      refine decide_eq_true fun same => ?_
      exact untouched.kept (same ▸ member)
    exact @lookup_filter name fields (fun other => decide (other ≠ removable)) kept
  | message settled gone message held long => exact lookup_changeField_other untouched.message.symm

theorem shrinkLoop_lookup {maxBytes rounds : Nat}
    (ended : shrinkLoop floatText maxBytes rounds fields = some result)
    (untouched : Untouched name) : lookup name result = lookup name fields := by
  induction rounds generalizing fields with
  | zero => cases ended
  | succ rounds ih =>
    rw [shrinkLoop] at ended
    split at ended
    · cases ended
      rfl
    · split at ended
      · next smaller found =>
          exact (ih ended).trans ((shrink_shrinks found).lookup untouched)
      · cases ended
        rfl

/-- The root-cause fields of an event and the marks. -/
def base (floatText : UInt64 → Text) (event : Fields) : Fields :=
  (rootCauseFields.filterMap fun name =>
    (givenField event name).map fun value => (name, value)) ++ marks floatText event

theorem lookup_chosen (names : List Text) (tail : Fields) (given : Text → Option JsonValue) :
    lookup name ((names.filterMap fun name =>
        (given name).map fun value => (name, value)) ++ tail) =
      if name ∈ names then (given name).or (lookup name tail) else lookup name tail := by
  induction names with
  | nil => rfl
  | cons first rest ih =>
    cases found : given first with
    | none =>
      rw [List.filterMap_cons_none (by rw [found]; rfl), ih]
      by_cases same : name = first
      · subst same
        simp [found]
      · simp [same]
    | some value =>
      rw [List.filterMap_cons_some (by rw [found]; rfl), List.cons_append, lookup]
      by_cases same : first = name
      · subst same
        simp [found]
      · have apart : name ≠ first := fun equal => same equal.symm
        rw [if_neg same, ih]
        simp [apart]

theorem lookup_compact (untouched : Untouched name) :
    lookup name (compact floatText event) = lookup name (base floatText event) := by
  rw [compact, lookup_changeField_other untouched.message.symm,
    lookup_changeField_other untouched.exception.symm, base]

theorem compact_marked : Marked (compact floatText event) := by
  have untouched : Untouched eventTruncated := ⟨by decide, by decide, by decide⟩
  rw [Marked, lookup_compact untouched, base, lookup_chosen, if_neg (by decide)]
  rfl

/-- The names of the fields that an event is known by. -/
def identityFields : List Text := ["event_id", "event", "error_id"].map String.toList

theorem identity_untouched (member : name ∈ identityFields) :
    Untouched name ∧ name ∈ rootCauseFields ∧ name ≠ eventTruncated ∧
      name ≠ originalEventBytes := by
  have all : identityFields.all (fun name => decide ((name ≠ exceptionField ∧
      name ≠ messageField ∧ name ∉ removableFields) ∧ name ∈ rootCauseFields ∧
        name ≠ eventTruncated ∧ name ≠ originalEventBytes)) = true := by decide
  obtain ⟨⟨exception, message, kept⟩, rest⟩ :=
    of_decide_eq_true (List.all_eq_true.mp all name member)
  exact ⟨⟨exception, message, kept⟩, rest⟩

theorem givenField_idem (event : Fields) (name : Text) :
    (match givenField event name with
      | some (.scalar .none) => none
      | found => found) = givenField event name := by
  have apart : givenField event name ≠ some (.scalar .none) := by
    unfold givenField
    split
    · exact fun null => by cases null
    · next other => exact fun null => other null
  split
  · next null => exact absurd null apart
  · rfl

/-- What the processor leaves carries the mark and the identity of the event. -/
structure Carries (event result : Fields) : Prop where
  marked : lookup eventTruncated result = some (.scalar (.bool true))
  identity : ∀ name ∈ identityFields, givenField result name = givenField event name

theorem carries_of_loop {maxBytes rounds : Nat}
    (ended : shrinkLoop floatText maxBytes rounds (compact floatText event) = some result) :
    Carries event result := by
  constructor
  · exact (shrinkLoop_lookup ended ⟨by decide, by decide, by decide⟩).trans compact_marked
  · intro name member
    obtain ⟨untouched, root, mark, bytes⟩ := identity_untouched member
    have outside : lookup name (marks floatText event) = none := by
      simp [marks, lookup, mark.symm, bytes.symm]
    have found : lookup name result = givenField event name := by
      rw [shrinkLoop_lookup ended untouched, lookup_compact untouched, base, lookup_chosen,
        if_pos root, outside, Option.or_none]
    rw [givenField, found]
    exact givenField_idem event name

end Kept

/-! ## The reduced forms are what the loop can come to -/

section Forms

variable {floatText : UInt64 → Text} {event fields : Fields} {name : Text}

theorem base_nodup : ((base floatText event).map Prod.fst).Nodup := by
  have all : (rootCauseFields ++ [eventTruncated, originalEventBytes]).Nodup := by decide
  refine List.Nodup.sublist ?_ all
  rw [base, List.map_append]
  refine List.Sublist.append ?_ (List.Sublist.refl _)
  generalize rootCauseFields = names
  induction names with
  | nil => exact List.Sublist.slnil
  | cons first rest ih =>
    cases found : givenField event first with
    | none =>
      rw [List.filterMap_cons_none (by rw [found]; rfl)]
      exact ih.cons _
    | some value =>
      rw [List.filterMap_cons_some (by rw [found]; rfl), List.map_cons]
      exact ih.cons_cons _

/-- The base with every field cut in its way. -/
def cutBase (floatText : UInt64 → Text) (cut : Text → JsonValue → JsonValue) (event : Fields) :
    Fields :=
  (base floatText event).map fun field => (field.1, cut field.1 field.2)

theorem cutBase_names (cut : Text → JsonValue → JsonValue) :
    (cutBase floatText cut event).map Prod.fst = (base floatText event).map Prod.fst := by
  rw [cutBase, List.map_map]
  rfl

theorem changeField_cutBase (change : JsonValue → JsonValue) (cut : Text → JsonValue → JsonValue) :
    changeField name change (cutBase floatText cut event) = cutBase floatText
      (fun other value => if other = name then change (cut other value) else cut other value)
      event := by
  rw [changeField_map (by rw [cutBase_names]; exact base_nodup), cutBase, List.map_map, cutBase]
  rfl

theorem cutBase_congr {first second : Text → JsonValue → JsonValue}
    (same : ∀ name value, first name value = second name value) :
    cutBase floatText first event = cutBase floatText second event := by
  refine List.map_congr_left fun field _ => ?_
  rw [same]

theorem compact_eq : compact floatText event = cutBase floatText firstCut event := by
  have plain : base floatText event = cutBase floatText (fun _ value => value) event :=
    (List.map_id _).symm
  have start : compact floatText event = changeField messageField (cutText 256 truncatedEnd)
      (changeField exceptionField rootCause (base floatText event)) := rfl
  rw [start, plain, changeField_cutBase, changeField_cutBase]
  refine cutBase_congr fun name value => ?_
  have apart : messageField ≠ exceptionField := by decide
  unfold firstCut
  grind

theorem bare_compact : bare (compact floatText event) =
    (cutBase floatText frameCut event).filter fun field => decide (field.1 ∉ removableFields) := by
  rw [compact_eq, bare, changeField_cutBase]
  congr 1
  refine cutBase_congr fun name value => ?_
  unfold frameCut firstCut
  grind

theorem short_compact : short (compact floatText event) =
    (cutBase floatText lastCut event).filter fun field => decide (field.1 ∉ removableFields) := by
  rw [short, bare_compact, ← @filter_changeField messageField _ _
    (fun other => decide (other ∉ removableFields)) kept_message, changeField_cutBase]
  congr 1
  refine cutBase_congr fun name value => ?_
  have apart : messageField ≠ exceptionField := by decide
  unfold lastCut frameCut
  grind

/-- A reduced form is the base, cut and filtered. -/
theorem reduced_eq {away : List Text} {cut : Text → JsonValue → JsonValue}
    (plain : ∀ name, name ∉ rootCauseFields → ∀ value, cut name value = value)
    (within : away ⊆ rootCauseFields) :
    reduced floatText away cut event =
      (cutBase floatText cut event).filter fun field => decide (field.1 ∉ away) := by
  have truncated : eventTruncated ∉ rootCauseFields := by decide
  have bytes : originalEventBytes ∉ rootCauseFields := by decide
  have stay : (marks floatText event).map (fun field => (field.1, cut field.1 field.2)) =
      marks floatText event := by
    simp [marks, plain _ truncated, plain _ bytes]
  have kept : (marks floatText event).filter (fun field => decide (field.1 ∉ away)) =
      marks floatText event := by
    have first : eventTruncated ∉ away := fun member => truncated (within member)
    have second : originalEventBytes ∉ away := fun member => bytes (within member)
    simp [marks, first, second]
  rw [reduced, cutBase, base, List.map_append, List.filter_append, stay, kept]
  congr 1
  generalize rootCauseFields = names
  induction names with
  | nil => rfl
  | cons name rest ih =>
    cases found : givenField event name with
    | none =>
      rw [List.filterMap_cons_none (by rw [found]; simp), ih,
        List.filterMap_cons_none (by rw [found]; rfl)]
    | some value =>
      by_cases gone : name ∈ away
      · rw [List.filterMap_cons_none (by simp [gone]), ih]
        simp [found, gone]
      · rw [List.filterMap_cons_some (by rw [if_neg gone, found]; rfl), ih]
        simp [found, gone]

theorem cuts_plain (outside : name ∉ rootCauseFields) (value : JsonValue) :
    firstCut name value = value ∧ frameCut name value = value ∧ lastCut name value = value := by
  have exception : name ≠ exceptionField := by
    rintro rfl
    exact outside (by decide)
  have message : name ≠ messageField := by
    rintro rfl
    exact outside (by decide)
  simp [firstCut, frameCut, lastCut, exception, message]

theorem reducedForms_eq : reducedForms floatText event =
    [compact floatText event, bare (compact floatText event), short (compact floatText event)] := by
  have within : removableFields ⊆ rootCauseFields := by decide
  rw [reducedForms, reduced_eq (fun name outside value => (cuts_plain outside value).1)
      (List.nil_subset _),
    reduced_eq (fun name outside value => (cuts_plain outside value).2.1) within,
    reduced_eq (fun name outside value => (cuts_plain outside value).2.2) within,
    ← bare_compact, ← short_compact, compact_eq]
  congr 1
  exact List.filter_eq_self.mpr fun field _ => by simp

end Forms

/-! ## The budget -/

section

variable (floatText : UInt64 → Text)

/-- The processor ends with an event that is not too large: the same event if that was
not too large, and else one that carries the mark and the identity. -/
def CutToSize (maxBytes : Nat) (event : Fields) : Prop :=
  ∃ processor, enforceEventBudget floatText maxBytes = .ok processor ∧
    ∃ rounds result, processor rounds event = some result ∧ jsonSize floatText result ≤ maxBytes ∧
      (jsonSize floatText event ≤ maxBytes → result = event) ∧
      (maxBytes < jsonSize floatText event → Carries event result)

variable {maxBytes : Nat} {event : Fields}

theorem cutToSize_iff_ends (enough : 1024 ≤ maxBytes) :
    CutToSize floatText maxBytes event ↔ jsonSize floatText event ≤ maxBytes ∨
      EndsSmall floatText maxBytes (compact floatText event) := by
  have made : enforceEventBudget floatText maxBytes =
      .ok fun rounds event => process floatText maxBytes rounds event :=
    if_neg (Nat.not_lt.mpr enough)
  constructor
  · rintro ⟨processor, same, rounds, result, ended, room, -, -⟩
    rw [made] at same
    cases same
    by_cases fits : jsonSize floatText event ≤ maxBytes
    · exact .inl fits
    · change process floatText maxBytes rounds event = some result at ended
      rw [process, if_neg fits] at ended
      exact .inr ⟨rounds, result, ended, room⟩
  · intro room
    refine ⟨_, made, ?_⟩
    by_cases fits : jsonSize floatText event ≤ maxBytes
    · exact ⟨0, event, if_pos fits, fits, fun _ => rfl, fun large => absurd fits (by omega)⟩
    · obtain ⟨rounds, result, ended, small⟩ := room.resolve_left fits
      refine ⟨rounds, result, ?_, small, fun room => absurd room fits, fun _ => ?_⟩
      · rw [process, if_neg fits]
        exact ended
      · exact carries_of_loop ended

/--
An event is cut to size exactly if it is not too large, or one of its three reduced
forms is not.
-/
theorem enforceEventBudget_cuts_iff (maxBytes : Nat) (enough : 1024 ≤ maxBytes) (event : Fields) :
    CutToSize floatText maxBytes event ↔ jsonSize floatText event ≤ maxBytes ∨
      ∃ form ∈ reducedForms floatText event, jsonSize floatText form ≤ maxBytes := by
  rw [cutToSize_iff_ends floatText enough, endsSmall_iff compact_marked, reducedForms_eq]
  simp

end

/-! ## A long operation -/

def noFloats (_ : UInt64) : Text := "0.0".toList

/-- A message of forty letters and an operation of 260 letters of four bytes each. -/
def operationHeap : Nat → Object := fun _ => .mapping
  [(.text "event".toList, .text "call_failed".toList),
    (.text messageField, .text (List.replicate 40 'm')),
    (.text "operation".toList, .text (List.replicate 260 '😀'))]

def operationEvent : Fields :=
  [("event".toList, .text "call_failed".toList), (messageField, .text (List.replicate 40 'm')),
    ("operation".toList, .text (List.replicate 260 '😀'))]

theorem operation_settled :
    (lookup exceptionField (compact noFloats operationEvent)).bind longStack = none := by rfl

theorem operation_gone : ∀ removable ∈ removableFields,
    lookup removable (compact noFloats operationEvent) = none := by
  intro removable member
  have outside : removable ∉ (compact noFloats operationEvent).map Prod.fst := by
    revert member
    have apart : ∀ removable ∈ removableFields, removable ∉
      ["event".toList, messageField, "operation".toList, eventTruncated, originalEventBytes] := by
      decide
    exact apart removable
  cases found : lookup removable (compact noFloats operationEvent) with
  | none => rfl
  | some value => exact absurd (List.mem_map_of_mem (lookup_mem found)) outside

theorem operation_message : lookup messageField (compact noFloats operationEvent) =
    some (.text (List.replicate 40 'm')) := by rfl

/-- The loop goes round for ever. -/
theorem operation_runs (rounds : Nat) : process noFloats 1024 rounds operationEvent = none := by
  have large : ¬ jsonSize noFloats operationEvent ≤ 1024 := by decide +kernel
  have compactLarge : ¬ jsonSize noFloats (compact noFloats operationEvent) ≤ 1024 := by
    decide +kernel
  have shortLarge : ¬ jsonSize noFloats (changeField messageField (cutText 32 ['…'])
      (compact noFloats operationEvent)) ≤ 1024 := by
    decide +kernel
  have stays := shrink_message operation_settled operation_gone operation_message (by decide)
  have first : shrink (compact noFloats operationEvent) =
      some (changeField messageField (cutText 32 ['…']) (compact noFloats operationEvent)) := by
    rfl
  rw [process, if_neg large]
  cases rounds with
  | zero => rfl
  | succ rounds =>
    rw [shrinkLoop, if_neg compactLarge, first]
    exact shrinkLoop_stuck shortLarge stays rounds

theorem operation_cuts_iff :
    CutToSize noFloats 1200 operationEvent ↔ jsonSize noFloats operationEvent ≤ 1200 ∨
      ∃ form ∈ reducedForms noFloats operationEvent, jsonSize noFloats form ≤ 1200 :=
  enforceEventBudget_cuts_iff noFloats 1200 (by decide) operationEvent

theorem operation_sanitized :
    sanitizeEvent asciiLanguage operationHeap [] 0 = some operationEvent := by
  have message : scrubText asciiLanguage [] [] (List.replicate 40 'm') =
      List.replicate 40 'm' := by decide +kernel
  have operation : scrubText asciiLanguage [] [] (List.replicate 260 '😀') =
      List.replicate 260 '😀' := by decide +kernel
  have event : scrubText asciiLanguage [] [] "call_failed".toList = "call_failed".toList := by
    decide +kernel
  have plain : ∀ name ∈ ["event".toList, messageField, "operation".toList],
      isSensitiveField asciiLanguage name = false := by decide
  have key : ∀ name ∈ ["event".toList, messageField, "operation".toList], name ≠ keySuffix := by
    decide
  have suffixes : eventSuffixes [(.text "event".toList, .text "call_failed".toList),
      (.text messageField, .text (List.replicate 40 'm')),
      (.text "operation".toList, .text (List.replicate 260 '😀'))] = [] := by rfl
  have deep : ∀ name ∈ ["event".toList, messageField, "operation".toList], ∀ text : Text,
      convert asciiLanguage operationHeap [] [] 4 [0] name (.text text) =
        .text (scrubText asciiLanguage [] [] text) := by
    intro name member text
    rw [convert, convertWith, plain name member]
    simp [key name member]
  have walked : convert asciiLanguage operationHeap [] [] maxDepth [] "event".toList
      (.object 0) = .object operationEvent := by
    refine (convert_object (plain _ (by decide)) 0).trans ?_
    have fields : convertObject operationHeap (fieldLimit 5) []
        (convert asciiLanguage operationHeap [] [] 4 [0]) "event".toList 0 =
        .object [("event".toList, convert asciiLanguage operationHeap [] [] 4 [0]
            "event".toList (.text "call_failed".toList)),
          (messageField, convert asciiLanguage operationHeap [] [] 4 [0]
            messageField (.text (List.replicate 40 'm'))),
          ("operation".toList, convert asciiLanguage operationHeap [] [] 4 [0]
            "operation".toList (.text (List.replicate 260 '😀')))] := by rfl
    refine fields.trans ?_
    rw [deep _ (by decide), deep _ (by decide), deep _ (by decide), event, message, operation]
    rfl
  unfold sanitizeEvent
  have heap : operationHeap 0 = .mapping [(.text "event".toList, .text "call_failed".toList),
      (.text messageField, .text (List.replicate 40 'm')),
      (.text "operation".toList, .text (List.replicate 260 '😀'))] := rfl
  simp only [heap, suffixes, walked]

/-- A redacted event that the processor never returns. -/
theorem operation_not_cut :
    sanitizeEvent asciiLanguage operationHeap [] 0 = some operationEvent ∧
      ¬ CutToSize noFloats 1024 operationEvent := by
  refine ⟨operation_sanitized, ?_⟩
  rintro ⟨processor, same, rounds, result, ended, -⟩
  cases same
  have never := (operation_runs rounds).symm.trans ended
  cases never

end BobbyBotique.Observability
