import BobbyBotique.Observability.Redaction

/-!
# What an event discloses

The strings that a sanitized event shows are scrubbed texts, texts of the code itself
and the names of keys and types, which are written as they are.
-/

namespace BobbyBotique.Observability

/-- A string of a result, as a value or as a key; what a key suffix shows is left out. -/
inductive Shown : Text → JsonValue → Text → Prop where
  | text {field text : Text} (apart : field ≠ keySuffix) : Shown field (.text text) text
  | item {field text : Text} {items : List JsonValue} {item : JsonValue} (member : item ∈ items)
      (inner : Shown field item text) : Shown field (.list items) text
  | key {field name : Text} {fields : List (Text × JsonValue)} {value : JsonValue}
      (member : (name, value) ∈ fields) : Shown field (.object fields) name
  | field {field name text : Text} {fields : List (Text × JsonValue)} {value : JsonValue}
      (member : (name, value) ∈ fields) (inner : Shown name value text) :
      Shown field (.object fields) text

/-- A field of a result, at any depth. -/
inductive FieldOf : JsonValue → Text → JsonValue → Prop where
  | here {name : Text} {fields : List (Text × JsonValue)} {value : JsonValue}
      (member : (name, value) ∈ fields) : FieldOf (.object fields) name value
  | field {name other : Text} {fields : List (Text × JsonValue)} {value found : JsonValue}
      (member : (name, value) ∈ fields) (inner : FieldOf value other found) :
      FieldOf (.object fields) other found
  | item {name : Text} {items : List JsonValue} {item found : JsonValue} (member : item ∈ items)
      (inner : FieldOf item name found) : FieldOf (.list items) name found

/-- The fields of a mapping that are written, and the field that counts the others. -/
def writtenFields (limit : Nat) (items : List (Key × Value)) : List (Text × Option Value) :=
  let kept := items.take limit
  let fields := kept.foldl (fun fields item => setField item.1.written (some item.2) fields) []
  if kept.length < items.length then setField truncatedFields none fields else fields

section

variable (language : Language)

/--
The names that the walk over a value writes: the keys of the mappings it looks
into, and the types of the objects it cannot look into.
-/
inductive Names (heap : Nat → Object) : Nat → List Nat → Text → Value → Text → Prop where
  | type {left : Nat} {seen : List Nat} {field typeName : Text} {identity : Nat}
      (plain : isSensitiveField language field = false) (fresh : identity ∉ seen)
      (there : heap identity = .other typeName) (apart : field ≠ keySuffix) :
      Names heap (left + 1) seen field (.object identity) (typeText typeName)
  | key {left : Nat} {seen : List Nat} {field name : Text} {identity : Nat}
      {items : List (Key × Value)} {value : Option Value}
      (plain : isSensitiveField language field = false) (fresh : identity ∉ seen)
      (there : heap identity = .mapping items)
      (member : (name, value) ∈ writtenFields (fieldLimit (left + 1)) items) :
      Names heap (left + 1) seen field (.object identity) name
  | field {left : Nat} {seen : List Nat} {field name other : Text} {identity : Nat}
      {items : List (Key × Value)} {value : Value}
      (plain : isSensitiveField language field = false) (fresh : identity ∉ seen)
      (there : heap identity = .mapping items)
      (member : (name, some value) ∈ writtenFields (fieldLimit (left + 1)) items)
      (inner : Names heap left (identity :: seen) name value other) :
      Names heap (left + 1) seen field (.object identity) other
  | item {left : Nat} {seen : List Nat} {field other : Text} {identity : Nat}
      {items : List Value} {value : Value}
      (plain : isSensitiveField language field = false) (fresh : identity ∉ seen)
      (there : heap identity = .collection items) (member : value ∈ items.take maxCollectionItems)
      (inner : Names heap left (identity :: seen) field value other) :
      Names heap (left + 1) seen field (.object identity) other

end

/-- The texts that the code writes itself in place of values. -/
def ownTexts : List Text :=
  ["[redacted]", "[max-depth]", "[cycle]", "type", "size", "bytes"].map String.toList

/-- A text of the code itself. -/
def Own (text : Text) : Prop := text ∈ ownTexts ∨ ∃ count, text = truncatedItems count

/-- A secret that no text of the code itself holds, and that the mark of a cut does not end. -/
structure Ordinary (secret : Text) : Prop where
  apart : ∀ own, Own own → ¬ secret <:+: own
  ends : secret.getLast? ≠ some '…'

section Walk

variable {language : Language} {heap : Nat → Object} {known suffixes : List Text}
variable {left : Nat} {seen : List Nat} {field name text : Text} {value : Value}

/-! ## Fields of a dict -/

theorem setField_map {V W : Type} (convert : Text → V → W) (name : Text) (value : V)
    (fields : List (Text × V)) :
    (setField name value fields).map (fun field => (field.1, convert field.1 field.2)) =
      setField name (convert name value)
        (fields.map fun field => (field.1, convert field.1 field.2)) := by
  induction fields with
  | nil => rfl
  | cons first rest ih =>
    obtain ⟨other, old⟩ := first
    by_cases same : other = name
    · simp [setField, same]
    · simp [setField, same, ih]

theorem mem_setField {V : Type} {name other : Text} {value found : V} {fields : List (Text × V)}
    (member : (other, found) ∈ setField name value fields) :
    (other = name ∧ found = value) ∨ (other, found) ∈ fields := by
  induction fields with
  | nil =>
    cases List.mem_singleton.mp member
    exact .inl ⟨rfl, rfl⟩
  | cons first rest ih =>
    obtain ⟨key, old⟩ := first
    rw [setField] at member
    split at member
    · rcases List.mem_cons.mp member with same | later
      · cases same
        exact .inl ⟨rfl, rfl⟩
      · exact .inr (List.mem_cons_of_mem _ later)
    · rcases List.mem_cons.mp member with same | later
      · cases same
        exact .inr List.mem_cons_self
      · exact (ih later).imp_right (List.mem_cons_of_mem _)

/-- What stands in a written field. -/
def convertField (next : Text → Value → JsonValue) (left : Int) (name : Text) :
    Option Value → JsonValue
  | some value => next name value
  | none => .scalar (.int left)

theorem foldl_setField (next : Text → Value → JsonValue) (count : Int)
    (items : List (Key × Value)) (fields : List (Text × Option Value)) :
    items.foldl (fun result item => setField item.1.written (next item.1.written item.2) result)
        (fields.map fun field => (field.1, convertField next count field.1 field.2)) =
      (items.foldl (fun fields item => setField item.1.written (some item.2) fields) fields).map
        fun field => (field.1, convertField next count field.1 field.2) := by
  induction items generalizing fields with
  | nil => rfl
  | cons item rest ih =>
    rw [List.foldl_cons, List.foldl_cons, ← ih, setField_map]
    rfl

/-- The result for a mapping has the written fields. -/
theorem convertObject_mapping {next : Text → Value → JsonValue} {identity limit : Nat}
    {items : List (Key × Value)} (fresh : identity ∉ seen)
    (there : heap identity = .mapping items) :
    ∃ count, convertObject heap limit seen next field identity =
      .object ((writtenFields limit items).map fun field =>
        (field.1, convertField next count field.1 field.2)) := by
  refine ⟨items.length - (items.take limit).length, ?_⟩
  have folded := foldl_setField next (items.length - (items.take limit).length)
    (items.take limit) []
  rw [List.map_nil] at folded
  unfold convertObject writtenFields
  rw [if_neg fresh, there]
  dsimp only
  rw [folded]
  split
  · rw [setField_map]
    rfl
  · rfl

theorem convertObject_collection {next : Text → Value → JsonValue} {identity limit : Nat}
    {items : List Value} (fresh : identity ∉ seen) (there : heap identity = .collection items) :
    ∃ rest, convertObject heap limit seen next field identity =
        .list ((items.take maxCollectionItems).map (next field) ++ rest) ∧
      ∀ item ∈ rest, ∃ count, item = .text (truncatedItems count) := by
  unfold convertObject
  rw [if_neg fresh, there]
  dsimp only
  split
  · refine ⟨_, rfl, ?_⟩
    intro item member
    exact ⟨_, List.mem_singleton.mp member⟩
  · exact ⟨[], by rw [List.append_nil], by simp⟩

/-- What is done with an object that is not too deep. -/
theorem convertObject_cases (heap : Nat → Object) (limit : Nat) (seen : List Nat)
    (next : Text → Value → JsonValue) (field : Text) (identity : Nat) :
    convertObject heap limit seen next field identity = .text "[cycle]".toList ∨ identity ∉ seen ∧
        ((∃ items count, heap identity = .mapping items ∧
            convertObject heap limit seen next field identity =
              .object ((writtenFields limit items).map fun field =>
                (field.1, convertField next count field.1 field.2))) ∨
          (∃ items rest, heap identity = .collection items ∧
            convertObject heap limit seen next field identity =
              .list ((items.take maxCollectionItems).map (next field) ++ rest) ∧
            ∀ item ∈ rest, ∃ count, item = .text (truncatedItems count)) ∨
          ∃ typeName, heap identity = .other typeName ∧
            convertObject heap limit seen next field identity = .text (typeText typeName)) := by
  by_cases fresh : identity ∈ seen
  · exact .inl (if_pos fresh)
  · refine .inr ⟨fresh, ?_⟩
    cases there : heap identity with
    | mapping items =>
      obtain ⟨count, same⟩ := convertObject_mapping fresh there
      exact .inl ⟨items, count, rfl, same⟩
    | collection items =>
      obtain ⟨rest, same, cut⟩ := convertObject_collection fresh there
      exact .inr (.inl ⟨items, rest, rfl, same, cut⟩)
    | other typeName =>
      refine .inr (.inr ⟨typeName, rfl, ?_⟩)
      unfold convertObject
      rw [if_neg fresh, there]

theorem convert_object (plain : isSensitiveField language field = false) (identity : Nat) :
    convert language heap known suffixes (left + 1) seen field (.object identity) =
      convertObject heap (fieldLimit (left + 1)) seen
        (convert language heap known suffixes left (identity :: seen)) field identity := by
  rw [convert, convertWith, plain]
  rfl

theorem convert_sensitive (sensitive : isSensitiveField language field = true) :
    convert language heap known suffixes left seen field value = .text redacted := by
  cases left with
  | zero | succ => exact if_pos sensitive

/-! ## The names are shown -/

theorem Names.shown (named : Names language heap left seen field value name) :
    Shown field (convert language heap known suffixes left seen field value) name := by
  induction named with
  | type plain fresh there apart =>
    rw [convert_object plain, convertObject, if_neg fresh, there]
    exact .text apart
  | key plain fresh there member =>
    obtain ⟨count, same⟩ := convertObject_mapping fresh there
    rw [convert_object plain, same]
    exact .key (List.mem_map.mpr ⟨_, member, rfl⟩)
  | field plain fresh there member _ ih =>
    obtain ⟨count, same⟩ := convertObject_mapping fresh there
    rw [convert_object plain, same]
    exact .field (List.mem_map.mpr ⟨_, member, rfl⟩) ih
  | item plain fresh there member _ ih =>
    obtain ⟨rest, same, _⟩ := convertObject_collection fresh there
    rw [convert_object plain, same]
    exact .item (List.mem_append_left _ (List.mem_map.mpr ⟨_, member, rfl⟩)) ih

/-! ## What is shown -/

/-- What a value shows that is no object, or one that is not looked into. -/
theorem shown_with {deep : Nat → JsonValue}
    (shown : Shown field (convertWith language known suffixes deep field value) text) :
    (∃ identity, value = .object identity ∧ isSensitiveField language field = false ∧
        Shown field (deep identity) text) ∨
      Own text ∨ ∃ source, text = scrubText language known suffixes source := by
  unfold convertWith at shown
  split at shown
  · cases shown with
    | text => exact .inr (.inl (.inl (by decide)))
  · next plain =>
      cases value with
      | scalar scalar => cases shown
      | text source =>
        dsimp only at shown
        split at shown
        · next same =>
            cases shown with
            | text apart => exact absurd same apart
        · cases shown with
          | text => exact .inr (.inr ⟨source, rfl⟩)
      | bytes size =>
        refine .inr (.inl (.inl ?_))
        cases shown with
        | key member =>
          rcases List.mem_cons.mp member with same | member
          · cases same
            decide
          · cases List.mem_singleton.mp member
            decide
        | field member inner =>
          rcases List.mem_cons.mp member with same | member
          · cases same
            cases inner
            decide
          · cases List.mem_singleton.mp member
            cases inner
      | object identity =>
        exact .inl ⟨identity, rfl, Bool.eq_false_iff.mpr plain, shown⟩

/-- What is shown is a name, a text of the code itself or a scrubbed text. -/
theorem shown_cases
    (shown : Shown field (convert language heap known suffixes left seen field value) text) :
    Names language heap left seen field value text ∨ Own text ∨
      ∃ source, text = scrubText language known suffixes source := by
  induction left generalizing seen field value with
  | zero =>
    rw [convert] at shown
    rcases shown_with shown with ⟨identity, _, _, deep⟩ | rest
    · cases deep
      exact .inr (.inl (.inl (by decide)))
    · exact .inr rest
  | succ left ih =>
    rw [convert] at shown
    rcases shown_with shown with ⟨identity, rfl, plain, deep⟩ | rest
    · rcases convertObject_cases heap (fieldLimit (left + 1)) seen
        (convert language heap known suffixes left (identity :: seen)) field identity with
        same | ⟨fresh, ⟨items, count, there, same⟩ | ⟨items, rest, there, same, cut⟩ |
          ⟨typeName, there, same⟩⟩
      · rw [same] at deep
        cases deep
        exact .inr (.inl (.inl (by decide)))
      · rw [same] at deep
        cases deep with
        | key member =>
          obtain ⟨written, among, same⟩ := List.mem_map.mp member
          cases same
          exact .inl (.key plain fresh there among)
        | field member inner =>
          obtain ⟨⟨name, written⟩, among, same⟩ := List.mem_map.mp member
          cases same
          cases written with
          | none => cases inner
          | some value =>
            exact (ih inner).imp_left fun names => .field plain fresh there among names
      · rw [same] at deep
        cases deep with
        | item member inner =>
          rcases List.mem_append.mp member with among | last
          · obtain ⟨value, kept, rfl⟩ := List.mem_map.mp among
            exact (ih inner).imp_left fun names => .item plain fresh there kept names
          · obtain ⟨count, rfl⟩ := cut _ last
            cases inner
            exact .inr (.inl (.inr ⟨count, rfl⟩))
      · rw [same] at deep
        cases deep with
        | text apart => exact .inl (.type plain fresh there apart)
    · exact .inr rest

/-! ## Sensitive fields -/

/-- Among ASCII letters folding the case makes capitals small. -/
theorem casefold_ascii {name : Text} (ascii : ∀ c ∈ name, c.toNat < 128) :
    name.flatMap language.casefold = name.map Char.toLower := by
  induction name with
  | nil => rfl
  | cons c rest ih =>
    obtain ⟨head, tail⟩ := List.forall_mem_cons.mp ascii
    rw [List.flatMap_cons, language.ascii c head, ih tail]
    rfl

/-- A small ASCII name that holds no marker is not sensitive. -/
theorem plain_ascii {name : Text} (ascii : ∀ c ∈ name, c.toNat < 128)
    (plain : sensitiveMarkers.all (fun marker => decide (¬ marker <:+: name.map Char.toLower)) =
      true) : isSensitiveField language name = false := by
  unfold isSensitiveField
  dsimp only
  rw [casefold_ascii ascii]
  split
  · rfl
  · rw [List.any_eq_false]
    intro marker member holds
    have apart := List.all_eq_true.mp plain marker member
    exact of_decide_eq_true apart (of_decide_eq_true holds)

theorem truncatedFields_plain : isSensitiveField language truncatedFields = false :=
  plain_ascii (forall_mem_of_all (by decide)) (by decide)

theorem mem_writtenFields {limit : Nat} {items : List (Key × Value)}
    (member : (name, none) ∈ writtenFields limit items) : name = truncatedFields := by
  have kept : ∀ (items : List (Key × Value)) (fields : List (Text × Option Value)),
      (∀ field ∈ fields, field.2 ≠ none) →
      ∀ field ∈ items.foldl (fun fields item =>
        setField item.1.written (some item.2) fields) fields, field.2 ≠ none := by
    intro items
    induction items with
    | nil => exact fun fields all => all
    | cons item rest ih =>
      intro fields all
      refine ih _ ?_
      rintro ⟨other, found⟩ among
      rcases mem_setField among with ⟨_, rfl⟩ | before
      · exact fun absurd => nomatch absurd
      · exact all _ before
  have fields := kept (items.take limit) [] (by simp)
  unfold writtenFields at member
  dsimp only at member
  split at member
  · rcases mem_setField member with ⟨same, _⟩ | among
    · exact same
    · exact absurd rfl (fields _ among)
  · exact absurd rfl (fields _ member)

theorem field_with {deep : Nat → JsonValue} {found : JsonValue}
    (inside : FieldOf (convertWith language known suffixes deep field value) name found)
    (sensitive : isSensitiveField language name = true) :
    ∃ identity, value = .object identity ∧ isSensitiveField language field = false ∧
      FieldOf (deep identity) name found := by
  unfold convertWith at inside
  split at inside
  · cases inside
  · next plain =>
      cases value with
      | scalar scalar => cases inside
      | text source =>
        dsimp only at inside
        split at inside <;> cases inside
      | bytes size =>
        have kind : isSensitiveField language "type".toList = false :=
          plain_ascii (forall_mem_of_all (by decide)) (by decide)
        have length : isSensitiveField language "size".toList = false :=
          plain_ascii (forall_mem_of_all (by decide)) (by decide)
        cases inside with
        | here member =>
          rcases List.mem_cons.mp member with same | member
          · cases same
            rw [kind] at sensitive
            cases sensitive
          · cases List.mem_singleton.mp member
            rw [length] at sensitive
            cases sensitive
        | field member inner =>
          rcases List.mem_cons.mp member with same | member
          · cases same
            cases inner
          · cases List.mem_singleton.mp member
            cases inner
      | object identity => exact ⟨identity, rfl, Bool.eq_false_iff.mpr plain, inside⟩

/-- A field with a sensitive name is replaced whole, at any depth. -/
theorem sensitive_replaced {found : JsonValue}
    (inside : FieldOf (convert language heap known suffixes left seen field value) name found)
    (sensitive : isSensitiveField language name = true) : found = .text redacted := by
  induction left generalizing seen field value with
  | zero =>
    rw [convert] at inside
    obtain ⟨identity, _, _, deep⟩ := field_with inside sensitive
    cases deep
  | succ left ih =>
    rw [convert] at inside
    obtain ⟨identity, rfl, plain, deep⟩ := field_with inside sensitive
    rcases convertObject_cases heap (fieldLimit (left + 1)) seen
      (convert language heap known suffixes left (identity :: seen)) field identity with
      same | ⟨_, ⟨items, count, _, same⟩ | ⟨items, rest, _, same, cut⟩ | ⟨_, _, same⟩⟩
    · rw [same] at deep
      cases deep
    · rw [same] at deep
      cases deep with
      | here member =>
        obtain ⟨⟨name, written⟩, among, same⟩ := List.mem_map.mp member
        cases same
        cases written with
        | none =>
          rw [mem_writtenFields among, truncatedFields_plain] at sensitive
          cases sensitive
        | some value => exact convert_sensitive sensitive
      | field member inner =>
        obtain ⟨⟨name, written⟩, among, same⟩ := List.mem_map.mp member
        cases same
        cases written with
        | none => cases inner
        | some value => exact ih inner
    · rw [same] at deep
      cases deep with
      | item member inner =>
        rcases List.mem_append.mp member with among | last
        · obtain ⟨value, kept, rfl⟩ := List.mem_map.mp among
          exact ih inner
        · obtain ⟨count, rfl⟩ := cut _ last
          cases inner
    · rw [same] at deep
      cases deep

/-! ## A run -/

theorem Ordinary.unmarked {secret : Text} (ordinary : Ordinary secret) (solid : secret ≠ [])
    (openBracket : '[' ∉ secret) (closeBracket : ']' ∉ secret) : Unmarked secret where
  solid := solid
  openBracket := openBracket
  closeBracket := closeBracket
  apartMarker := by
    intro inside
    refine ordinary.apart "[redacted]".toList (.inl (by decide)) (inside.trans ?_)
    exact ⟨['['], [']'], rfl⟩
  apartCut := by
    intro inside
    refine ordinary.apart _ (.inr ⟨0, rfl⟩) (inside.trans ?_)
    exact ⟨['['], " 0 items]".toList, rfl⟩
  ends := ordinary.ends

/-- The event becomes a dict, for which the walk starts at its items. -/
theorem sanitizeEvent_mapping {event : Nat} {items : List (Key × Value)}
    (there : heap event = .mapping items) :
    ∃ fields, sanitizeEvent language heap known event = some fields ∧
      convert language heap known (eventSuffixes items) maxDepth [] "event".toList
        (.object event) = .object fields := by
  have plain : isSensitiveField language "event".toList = false :=
    plain_ascii (forall_mem_of_all (by decide)) (by decide)
  obtain ⟨count, same⟩ := @convertObject_mapping heap [] "event".toList
    (convert language heap known (eventSuffixes items) 4 [event]) event (fieldLimit 5) items
    (by simp) there
  have converted : convert language heap known (eventSuffixes items) maxDepth [] "event".toList
      (.object event) = _ := (convert_object plain event).trans same
  refine ⟨_, ?_, converted⟩
  unfold sanitizeEvent
  rw [there]
  dsimp only
  rw [converted]

end Walk

/-- Letters below 128 are the only ones of this language. -/
def asciiLanguage : Language :=
  ⟨Char.isDigit, fun _ _ => rfl, fun c => [c.toLower], fun _ _ => rfl⟩

def hunterSecret : Text := "hunter2".toList

theorem hunterSecret_ordinary : Ordinary hunterSecret where
  apart := by
    rintro own (fixed | ⟨count, rfl⟩) inside
    · have apart : ∀ own ∈ ownTexts, ¬ hunterSecret <:+: own := forall_mem_of_all (by decide)
      exact apart own fixed inside
    · have letter : 'h' ∈ truncatedItems count := inside.subset (by decide)
      unfold truncatedItems at letter
      rcases List.mem_append.mp letter with letter | letter
      · rcases List.mem_append.mp letter with letter | letter
        · revert letter
          decide
        · have digit := Nat.isDigit_of_mem_toDigits (by decide) (by decide) letter
          revert digit
          decide
      · revert letter
        decide
  ends := by decide

/-- A message that holds the secret. -/
def messageHeap : Nat → Object :=
  fun _ => .mapping [(.text "message".toList, .text "login hunter2".toList)]

/-- A mapping whose key is the secret. -/
def keyHeap : Nat → Object := fun _ => .mapping [(.text hunterSecret, .scalar (.int 1))]

end BobbyBotique.Observability
