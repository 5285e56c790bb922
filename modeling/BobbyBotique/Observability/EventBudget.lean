import BobbyBotique.Foundation.JsonText
import BobbyBotique.Foundation.Utf8
import BobbyBotique.Observability.Redaction

/-!
# The size of an event

`enforce_event_budget` over redacted events.  What its loop can make of an event does not
depend on how often the loop goes round: every event on the way has the same bare form.
-/

namespace BobbyBotique.Observability

abbrev Fields := List (Text × JsonValue)

/-! ## Fields of a dict -/

/-- `fields.get(name)`, where a name that is absent is told from a null. -/
def lookup (name : Text) : Fields → Option JsonValue
  | [] => none
  | (other, value) :: rest => if other = name then some value else lookup name rest

/-- A change of the value that stands under a name, if there is one. -/
def changeField (name : Text) (change : JsonValue → JsonValue) (fields : Fields) : Fields :=
  match lookup name fields with
  | some value => setField name (change value) fields
  | none => fields

/-- `fields.pop(name)`. -/
def popField (name : Text) (fields : Fields) : Fields :=
  fields.filter fun field => field.1 ≠ name

section Fields

variable {name other : Text} {value old : JsonValue} {fields : Fields}
  {change first second : JsonValue → JsonValue} {keep : Text → Bool}

@[simp] theorem lookup_setField_same : lookup name (setField name value fields) = some value := by
  induction fields with
  | nil => simp [setField, lookup]
  | cons field rest ih =>
    obtain ⟨key, held⟩ := field
    rw [setField]
    split
    · simp [lookup]
    · next apart =>
        rw [lookup, if_neg apart]
        exact ih

theorem lookup_setField_other (apart : name ≠ other) :
    lookup other (setField name value fields) = lookup other fields := by
  induction fields with
  | nil => simp [setField, lookup, apart]
  | cons field rest ih =>
    obtain ⟨key, held⟩ := field
    rw [setField]
    split
    · next same =>
        subst same
        rw [lookup, if_neg apart, lookup, if_neg apart]
    · rw [lookup, lookup, ih]

theorem setField_twice (first second : JsonValue) :
    setField name second (setField name first fields) = setField name second fields := by
  induction fields with
  | nil => simp [setField]
  | cons field rest ih =>
    obtain ⟨key, held⟩ := field
    by_cases same : key = name
    · simp [setField, same]
    · simp [setField, same, ih]

/-- Two assignments change places if the name of the first stood there before. -/
theorem setField_comm (apart : name ≠ other) (there : lookup name fields = some old)
    (first second : JsonValue) :
    setField name first (setField other second fields) =
      setField other second (setField name first fields) := by
  induction fields with
  | nil => cases there
  | cons field rest ih =>
    obtain ⟨key, held⟩ := field
    by_cases same : key = name
    · subst same
      simp [setField, apart]
    · rw [lookup, if_neg same] at there
      by_cases equal : key = other
      · subst equal
        simp [setField, same]
      · simp [setField, same, equal, ih there]

theorem setField_self (there : lookup name fields = some value) :
    setField name value fields = fields := by
  induction fields with
  | nil => cases there
  | cons field rest ih =>
    obtain ⟨key, held⟩ := field
    by_cases same : key = name
    · rw [lookup, if_pos same] at there
      cases there
      rw [setField, if_pos same, same]
    · rw [lookup, if_neg same] at there
      rw [setField, if_neg same, ih there]

theorem setField_length (there : lookup name fields = some old) :
    (setField name value fields).length = fields.length := by
  induction fields with
  | nil => cases there
  | cons field rest ih =>
    obtain ⟨key, held⟩ := field
    by_cases same : key = name
    · simp [setField, same]
    · rw [lookup, if_neg same] at there
      simp [setField, same, ih there]

theorem setField_ne_nil : setField name value fields ≠ [] := by
  intro empty
  have found := @lookup_setField_same name value fields
  rw [empty] at found
  cases found

theorem lookup_filter (kept : keep name = true) :
    lookup name (fields.filter fun field => keep field.1) = lookup name fields := by
  induction fields with
  | nil => rfl
  | cons field rest ih =>
    obtain ⟨key, held⟩ := field
    by_cases same : key = name
    · subst same
      simp [lookup, kept]
    · by_cases here : keep key <;> simp [lookup, here, same, ih]

theorem filter_setField (kept : keep name = true) :
    (setField name value fields).filter (fun field => keep field.1) =
      setField name value (fields.filter fun field => keep field.1) := by
  induction fields with
  | nil => simp [setField, kept]
  | cons field rest ih =>
    obtain ⟨key, held⟩ := field
    by_cases same : key = name
    · subst same
      simp [setField, kept]
    · by_cases here : keep key <;> simp [setField, here, same, ih]

theorem lookup_mem (there : lookup name fields = some value) : (name, value) ∈ fields := by
  induction fields with
  | nil => cases there
  | cons field rest ih =>
    obtain ⟨key, held⟩ := field
    rw [lookup] at there
    split at there
    · next same =>
        cases there
        rw [same]
        exact List.mem_cons_self
    · exact List.mem_cons_of_mem _ (ih there)

theorem lookup_none (absent : lookup name fields = none) {field : Text × JsonValue}
    (member : field ∈ fields) : field.1 ≠ name := by
  induction fields with
  | nil => cases member
  | cons first rest ih =>
    obtain ⟨key, held⟩ := first
    rw [lookup] at absent
    split at absent
    · cases absent
    · next apart =>
        rcases List.mem_cons.mp member with here | later
        · rw [here]
          exact apart
        · exact ih absent later

/-! ### Changes -/

theorem lookup_changeField_same :
    lookup name (changeField name change fields) = (lookup name fields).map change := by
  unfold changeField
  cases found : lookup name fields with
  | none => simpa using found
  | some value => simp

theorem lookup_changeField_other (apart : name ≠ other) :
    lookup other (changeField name change fields) = lookup other fields := by
  unfold changeField
  split
  · exact lookup_setField_other apart
  · rfl

theorem changeField_twice :
    changeField name second (changeField name first fields) =
      changeField name (second ∘ first) fields := by
  cases found : lookup name fields with
  | none => simp [changeField, found]
  | some value => simp [changeField, found, setField_twice]

theorem changeField_self (same : ∀ value, lookup name fields = some value → change value = value) :
    changeField name change fields = fields := by
  unfold changeField
  split
  · next value found =>
      rw [same value found]
      exact setField_self found
  · rfl

theorem changeField_congr
    (same : ∀ value, lookup name fields = some value → first value = second value) :
    changeField name first fields = changeField name second fields := by
  unfold changeField
  split
  · next value found => rw [same value found]
  · rfl

theorem filter_changeField (kept : keep name = true) :
    (changeField name change fields).filter (fun field => keep field.1) =
      changeField name change (fields.filter fun field => keep field.1) := by
  unfold changeField
  rw [lookup_filter kept]
  split
  · exact filter_setField kept
  · rfl

theorem changeField_length : (changeField name change fields).length = fields.length := by
  unfold changeField
  split
  · next found => exact setField_length found
  · rfl

/-- In a dict whose names differ a change reaches one field. -/
theorem changeField_map (nodup : (fields.map Prod.fst).Nodup) :
    changeField name change fields =
      fields.map fun field => (field.1, if field.1 = name then change field.2 else field.2) := by
  induction fields with
  | nil => rfl
  | cons field rest ih =>
    obtain ⟨key, held⟩ := field
    obtain ⟨fresh, nodup⟩ := List.nodup_cons.mp nodup
    by_cases same : key = name
    · subst same
      have others : (rest.map fun field =>
          (field.1, if field.1 = key then change field.2 else field.2)) = rest := by
        refine (List.map_congr_left ?_).trans (List.map_id rest)
        intro field member
        have apart : field.1 ≠ key := by
          intro equal
          exact fresh (List.mem_map.mpr ⟨field, member, equal⟩)
        simp [apart]
      simp [changeField, lookup, setField, others]
    · have later := ih nodup
      simp only [changeField, lookup, if_neg same, setField, List.map_cons] at later ⊢
      rw [← later]
      split <;> rfl

end Fields

/-! ## The encoding -/

section

variable (floatText : UInt64 → Text)

mutual

/-- `json.dumps` with `ensure_ascii=False` and the separators `,` and `:`. -/
def JsonValue.dumps : JsonValue → Text
  | .scalar .none => "null".toList
  | .scalar (.bool true) => "true".toList
  | .scalar (.bool false) => "false".toList
  | .scalar (.int value) => JsonText.printInt value
  | .scalar (.float bits) => floatText bits
  | .text text => JsonText.quoted text
  | .list [] => ['[', ']']
  | .list (item :: rest) => '[' :: (item.dumps ++ dumpsItems rest)
  | .object [] => ['{', '}']
  | .object ((name, value) :: rest) =>
    '{' :: (JsonText.quoted name ++ ':' :: (value.dumps ++ dumpsFields rest))

/-- The rest of a list. -/
def dumpsItems : List JsonValue → Text
  | [] => [']']
  | item :: rest => ',' :: (item.dumps ++ dumpsItems rest)

/-- The rest of an object. -/
def dumpsFields : List (Text × JsonValue) → Text
  | [] => ['}']
  | (name, value) :: rest =>
    ',' :: (JsonText.quoted name ++ ':' :: (value.dumps ++ dumpsFields rest))

end

def textSize (text : Text) : Nat := (Utf8.encode text).length

/-- `_json_size`. -/
def jsonSize (event : Fields) : Nat := textSize (JsonValue.dumps floatText (.object event))

/-! ## `enforce_event_budget` -/

def rootCauseFields : List Text :=
  ["schema_version", "timestamp", "level", "event", "message", "event_id", "service",
    "environment", "release", "instance_id", "hostname", "logger", "source", "request_id",
    "trace_id", "span_id", "parent_span_id", "user_id", "chat_id", "task_id", "execution_id",
    "operation", "attempt_id", "race_id", "provider", "requested_model", "actual_model",
    "key_present", "key_suffix", "key_fingerprint", "outcome", "reason_code", "failure_phase",
    "retry_disposition", "key_disposition", "error_id", "duration_ms", "exception"].map
    String.toList

def exceptionKeys : List Text :=
  ["type", "message", "stack", "cause", "context", "chain_truncated"].map String.toList

def removableFields : List Text :=
  ["source", "hostname", "instance_id", "parent_span_id", "span_id", "trace_id"].map String.toList

def exceptionField : Text := "exception".toList

def messageField : Text := "message".toList

def stackField : Text := "stack".toList

def stackTruncated : Text := "stack_truncated".toList

def eventTruncated : Text := "event_truncated".toList

def originalEventBytes : Text := "original_event_bytes".toList

/-- The value of a field, if it is there and not null. -/
def givenField (event : Fields) (name : Text) : Option JsonValue :=
  match lookup name event with
  | some (.scalar .none) => none
  | found => found

def marks (event : Fields) : Fields :=
  [(eventTruncated, .scalar (.bool true)),
    (originalEventBytes, .scalar (.int (jsonSize floatText event)))]

/-- The keys of an exception that are kept. -/
def rootCause : JsonValue → JsonValue
  | .object exception => .object (exceptionKeys.filterMap fun key =>
    (lookup key exception).map fun value => (key, value))
  | value => value

/-- A text that is longer is cut and marked. -/
def cutText (limit : Nat) (ending : Text) : JsonValue → JsonValue
  | .text text => if limit < text.length then .text (text.take limit ++ ending) else .text text
  | value => value

/-- `compact` before the loop. -/
def compact (event : Fields) : Fields :=
  let kept := rootCauseFields.filterMap fun name =>
    (givenField event name).map fun value => (name, value)
  changeField messageField (cutText 256 truncatedEnd)
    (changeField exceptionField rootCause (kept ++ marks floatText event))

end

/-- An exception and its stack, if that is a list of more than one frame. -/
def longStack : JsonValue → Option (Fields × List JsonValue)
  | .object exception =>
    match lookup stackField exception with
    | some (.list stack) => if 1 < stack.length then some (exception, stack) else none
    | _ => none
  | _ => none

/-- An exception with a stack that was cut. -/
def withStack (frames : List JsonValue) (exception : Fields) : Fields :=
  setField stackTruncated (.scalar (.bool true)) (setField stackField (.list frames) exception)

/-- The last frames of the stack of an exception; so many are kept of a number of them. -/
def cutStack (kept : Nat → Nat) (value : JsonValue) : JsonValue :=
  match longStack value with
  | some (exception, stack) =>
    .object (withStack (stack.drop (stack.length - kept stack.length)) exception)
  | none => value

def halfStack (frames : Nat) : Nat := max 1 (frames / 2)

/-- The body of the loop; nothing is left to do where it breaks. -/
def shrink (fields : Fields) : Option Fields :=
  if ((lookup exceptionField fields).bind longStack).isSome then
    some (changeField exceptionField (cutStack halfStack) fields)
  else
    match removableFields.find? fun name => (lookup name fields).isSome with
    | some removable => some (popField removable fields)
    | none =>
      match lookup messageField fields with
      | some (.text message) =>
        if 32 < message.length then
          some (setField messageField (.text (message.take 32 ++ ['…'])) fields)
        else none
      | _ => none

section

variable (floatText : UInt64 → Text)

/-- The loop, if it ends after so many rounds. -/
def shrinkLoop (maxBytes : Nat) : Nat → Fields → Option Fields
  | 0, _ => none
  | rounds + 1, fields =>
    if jsonSize floatText fields ≤ maxBytes then some fields
    else
      match shrink fields with
      | some smaller => shrinkLoop maxBytes rounds smaller
      | none => some fields

/-- The `processor`, if its loop ends after so many rounds. -/
def process (maxBytes rounds : Nat) (event : Fields) : Option Fields :=
  if jsonSize floatText event ≤ maxBytes then some event
  else shrinkLoop floatText maxBytes rounds (compact floatText event)

def tooSmallBudget : Text := "LOG_EVENT_MAX_BYTES must be at least 1024".toList

/-- `enforce_event_budget`. -/
def enforceEventBudget (maxBytes : Nat) : Except Text (Nat → Fields → Option Fields) :=
  if maxBytes < 1024 then .error tooSmallBudget
  else .ok fun rounds event => process floatText maxBytes rounds event

end

/-! ## Sizes -/

section Sizes

variable {floatText : UInt64 → Text} {fields : Fields} {name : Text} {value old : JsonValue}

theorem textSize_append (first second : Text) :
    textSize (first ++ second) = textSize first + textSize second := by
  rw [textSize, Utf8.encode_append, List.length_append]
  rfl

theorem textSize_cons (c : Char) (rest : Text) :
    textSize (c :: rest) = c.utf8Size + textSize rest := by
  rw [textSize, Utf8.encode_cons, List.length_append, String.length_utf8EncodeChar]
  rfl

/-- The bytes of the fields, each with the sign before it, and of the sign that ends them. -/
def fieldsSize (floatText : UInt64 → Text) (fields : Fields) : Nat :=
  textSize (dumpsFields floatText fields)

theorem jsonSize_eq (filled : fields ≠ []) :
    jsonSize floatText fields = fieldsSize floatText fields := by
  cases fields with
  | nil => exact absurd rfl filled
  | cons field rest =>
    obtain ⟨key, held⟩ := field
    rw [jsonSize, fieldsSize, JsonValue.dumps, dumpsFields, textSize_cons, textSize_cons]
    rfl

theorem fieldsSize_cons (rest : Fields) :
    fieldsSize floatText ((name, value) :: rest) =
      2 + textSize (JsonText.quoted name) + textSize (value.dumps floatText) +
        fieldsSize floatText rest := by
  have comma : Char.utf8Size ',' = 1 := rfl
  have colon : Char.utf8Size ':' = 1 := rfl
  rw [fieldsSize, dumpsFields, textSize_cons, textSize_append, textSize_cons, textSize_append,
    comma, colon, fieldsSize]
  omega

theorem fieldsSize_filter (keep : Text × JsonValue → Bool) (fields : Fields) :
    fieldsSize floatText (fields.filter keep) ≤ fieldsSize floatText fields := by
  induction fields with
  | nil => exact Nat.le_refl _
  | cons field rest ih =>
    obtain ⟨key, held⟩ := field
    by_cases here : keep (key, held)
    · rw [List.filter_cons_of_pos here, fieldsSize_cons, fieldsSize_cons]
      omega
    · rw [List.filter_cons_of_neg here, fieldsSize_cons]
      omega

theorem fieldsSize_setField (there : lookup name fields = some old) :
    fieldsSize floatText (setField name value fields) + textSize (old.dumps floatText) =
      fieldsSize floatText fields + textSize (value.dumps floatText) := by
  induction fields with
  | nil => cases there
  | cons field rest ih =>
    obtain ⟨key, held⟩ := field
    by_cases same : key = name
    · rw [lookup, if_pos same] at there
      cases there
      rw [setField, if_pos same, fieldsSize_cons, fieldsSize_cons, same]
      omega
    · rw [lookup, if_neg same] at there
      have later := ih there
      rw [setField, if_neg same, fieldsSize_cons, fieldsSize_cons]
      omega

theorem itemsSize_suffix {first second : List JsonValue} (within : first <:+ second) :
    textSize (dumpsItems floatText first) ≤ textSize (dumpsItems floatText second) := by
  obtain ⟨front, rfl⟩ := within
  induction front with
  | nil => exact Nat.le_refl _
  | cons item front ih =>
    rw [List.cons_append, dumpsItems, textSize_cons, textSize_append]
    omega

theorem listSize_eq {items : List JsonValue} (filled : items ≠ []) :
    textSize (JsonValue.dumps floatText (.list items)) = textSize (dumpsItems floatText items) := by
  cases items with
  | nil => exact absurd rfl filled
  | cons item rest =>
    rw [JsonValue.dumps, dumpsItems, textSize_cons, textSize_cons]
    rfl

theorem listSize_suffix {first second : List JsonValue} (within : first <:+ second)
    (filled : first ≠ []) :
    textSize (JsonValue.dumps floatText (.list first)) ≤
      textSize (JsonValue.dumps floatText (.list second)) := by
  have whole : second ≠ [] := by
    intro empty
    rw [empty] at within
    exact filled (List.suffix_nil.mp within)
  rw [listSize_eq filled, listSize_eq whole]
  exact itemsSize_suffix within

end Sizes

/-! ## The stack -/

section Stack

variable {value : JsonValue} {exception : Fields} {stack : List JsonValue} {kept : Nat → Nat}

theorem longStack_some (long : longStack value = some (exception, stack)) :
    value = .object exception ∧ lookup stackField exception = some (.list stack) ∧
      1 < stack.length := by
  unfold longStack at long
  split at long
  · split at long
    · split at long
      · next found more =>
          cases long
          exact ⟨rfl, found, more⟩
      · cases long
    · cases long
  · cases long

theorem cutStack_long (long : longStack value = some (exception, stack)) :
    cutStack kept value =
      .object (withStack (stack.drop (stack.length - kept stack.length)) exception) := by
  rw [cutStack, long]

theorem cutStack_short (short : longStack value = none) : cutStack kept value = value := by
  rw [cutStack, short]

theorem stackField_ne : stackField ≠ stackTruncated := by decide

theorem lookup_withStack (frames : List JsonValue) :
    lookup stackField (withStack frames exception) = some (.list frames) := by
  rw [withStack, lookup_setField_other stackField_ne.symm, lookup_setField_same]

theorem longStack_withStack (frames : List JsonValue) :
    longStack (.object (withStack frames exception)) =
      if 1 < frames.length then some (withStack frames exception, frames) else none := by
  rw [longStack, lookup_withStack]

theorem setField_withStack (first second : List JsonValue) :
    setField stackField (.list second) (withStack first exception) =
      withStack second exception := by
  rw [withStack, setField_comm stackField_ne lookup_setField_same, setField_twice, withStack]

/-- A second cut of the stack leaves what it leaves of the first stack. -/
theorem withStack_twice (first second : List JsonValue) :
    withStack second (withStack first exception) = withStack second exception := by
  rw [withStack, setField_withStack, withStack, setField_twice]

theorem halfStack_bounds {frames : Nat} (more : 1 < frames) :
    1 ≤ halfStack frames ∧ halfStack frames < frames := by
  unfold halfStack
  omega

/-- The last frame is the last of the frames that are left. -/
theorem cutStack_last (value : JsonValue) :
    cutStack (fun _ => 1) (cutStack halfStack value) = cutStack (fun _ => 1) value := by
  cases long : longStack value with
  | none => rw [cutStack_short long]
  | some found =>
    obtain ⟨exception, stack⟩ := found
    obtain ⟨-, held, more⟩ := longStack_some long
    have bounds := halfStack_bounds more
    rw [cutStack_long long, cutStack_long long]
    by_cases again : 1 < (stack.drop (stack.length - halfStack stack.length)).length
    · rw [cutStack_long ((longStack_withStack _).trans (if_pos again)), withStack_twice,
        List.drop_drop, List.length_drop]
      congr 3
      omega
    · rw [cutStack_short ((longStack_withStack _).trans (if_neg again))]
      have one : halfStack stack.length = 1 := by
        rw [List.length_drop] at again
        omega
      rw [one]

theorem objectSize_withStack (floatText : UInt64 → Text) (frames : List JsonValue) :
    textSize (JsonValue.dumps floatText (.object (withStack frames exception))) =
      fieldsSize floatText (withStack frames exception) := jsonSize_eq setField_ne_nil

/-- The frames that are dropped from a stack that is marked already take bytes away. -/
theorem cutStack_last_size (floatText : UInt64 → Text) (value : JsonValue) :
    textSize ((cutStack (fun _ => 1) value).dumps floatText) ≤
      textSize ((cutStack halfStack value).dumps floatText) := by
  cases long : longStack value with
  | none => rw [cutStack_short long, cutStack_short long]
  | some found =>
    obtain ⟨exception, stack⟩ := found
    obtain ⟨-, held, more⟩ := longStack_some long
    have bounds := halfStack_bounds more
    have fewer : stack.drop (stack.length - 1) <:+
        stack.drop (stack.length - halfStack stack.length) := by
      have place : stack.length - 1 =
          stack.length - halfStack stack.length + (halfStack stack.length - 1) := by omega
      rw [place, ← List.drop_drop]
      exact List.drop_suffix _ _
    have filled : stack.drop (stack.length - 1) ≠ [] := by
      intro empty
      have none := congrArg List.length empty
      rw [List.length_drop, List.length_nil] at none
      omega
    have sizes := @listSize_suffix floatText _ _ fewer filled
    have change := @fieldsSize_setField floatText _ stackField
      (.list (stack.drop (stack.length - 1))) _
      (@lookup_withStack exception (stack.drop (stack.length - halfStack stack.length)))
    rw [setField_withStack] at change
    rw [cutStack_long long, cutStack_long long, objectSize_withStack, objectSize_withStack]
    omega

end Stack

end BobbyBotique.Observability
