import BobbyBotique.Observability.Patterns
import Mathlib.Data.List.Dedup
import Mathlib.Data.List.Infix
import Mathlib.Data.List.Perm.Subperm

/-!
# Redacted events

The registry of secrets, `_scrub_text` and the walk over an event.  Objects stand in a
heap under their identities, so an event may hold itself.
-/

namespace BobbyBotique.Observability

/-! ## The registered secrets -/

def maxRegisteredSecrets : Nat := 1024

/-- `_KNOWN_SECRETS` and `_SECRET_ORDER`. -/
structure SecretRegistry where
  known : List Text
  order : List Text

namespace SecretRegistry

def empty : SecretRegistry := ⟨[], []⟩

/-- The loop that forgets the oldest secrets while there are too many. -/
def expire (known : List Text) : List Text → SecretRegistry
  | [] => ⟨known, []⟩
  | expired :: rest =>
    if maxRegisteredSecrets < (expired :: rest).length then expire (known.erase expired) rest
    else ⟨known, expired :: rest⟩

/-- `_register_secret`. -/
def registerSecret (registry : SecretRegistry) (secret : Text) : SecretRegistry :=
  if secret = [] then registry
  else if secret ∈ registry.known then registry
  else expire (secret :: registry.known) (registry.order ++ [secret])

theorem expire_few {known order : List Text} (few : order.length ≤ maxRegisteredSecrets) :
    expire known order = ⟨known, order⟩ := by
  cases order with
  | nil => rfl
  | cons first rest =>
    rw [expire, if_neg (Nat.not_lt.mpr few)]

end SecretRegistry

/-! ## Scrubbing -/

def maxStringChars : Nat := 2048

def truncatedEnd : Text := "…[truncated]".toList

/-- `sorted(…, key=len, reverse=True)`. -/
def longestFirst (words : List Text) : List Text :=
  words.mergeSort fun first second => decide (second.length ≤ first.length)

/-- The words are replaced one after another. -/
def replaceWords (words : List Text) (text : Text) : Text :=
  (longestFirst words).foldl
    (fun scrubbed word => if word = [] then scrubbed else replaceAll word redacted scrubbed) text

section

variable (language : Language)

/-- `_scrub_text`, with the secrets in the order of the set. -/
def scrubText (known suffixes : List Text) (value : Text) : Text :=
  let scrubbed := replaceWords suffixes (replaceWords known value)
  let scrubbed := resub authPattern 0 none scrubbed
  let scrubbed := resub urlPattern 0 none scrubbed
  let scrubbed := resub queryPattern 0 none scrubbed
  let scrubbed := resub (telegramPattern language) 0 none scrubbed
  let scrubbed := resub credentialPattern 0 none scrubbed
  if maxStringChars < scrubbed.length then scrubbed.take maxStringChars ++ truncatedEnd
  else scrubbed

/-- The names that are kept although they hold a marker. -/
def plainFields : List Text :=
  ["key_suffix", "key_fingerprint", "key_present", "key_source", "key_disposition", "token_count",
    "prompt_tokens", "completion_tokens", "max_tokens"].map String.toList

def sensitiveMarkers : List Text :=
  ["api_key", "authorization", "password", "passwd", "secret", "cookie", "access_token",
    "refresh_token", "bot_token", "service_account_json"].map String.toList

/-- `_is_sensitive_field`. -/
def isSensitiveField (name : Text) : Bool :=
  let normalized := name.flatMap language.casefold
  if plainFields.contains normalized then false
  else sensitiveMarkers.any fun marker => decide (marker <:+: normalized)

/-! ## The walk over an event -/

/-- A value that is written as it is. -/
inductive Scalar where
  | none
  | bool (value : Bool)
  | int (value : Int)
  | float (bits : UInt64)

/-- The key of a mapping; of a key that is no string the type is written. -/
inductive Key where
  | text (key : Text)
  | other (typeName : Text)

/-- A value of an event; mappings, collections and other objects have an identity. -/
inductive Value where
  | scalar (scalar : Scalar)
  | text (text : Text)
  | bytes (size : Nat)
  | object (identity : Nat)

inductive Object where
  | mapping (items : List (Key × Value))
  | collection (items : List Value)
  | other (typeName : Text)

inductive JsonValue where
  | scalar (scalar : Scalar)
  | text (text : Text)
  | list (items : List JsonValue)
  | object (fields : List (Text × JsonValue))

def typeText (typeName : Text) : Text := '<' :: (typeName ++ ['>'])

def Key.written : Key → Text
  | .text key => key
  | .other typeName => typeText typeName

/-- The assignment of a key in a dict, which keeps the place of a key that is there. -/
def setField {V : Type} (name : Text) (value : V) : List (Text × V) → List (Text × V)
  | [] => [(name, value)]
  | (other, old) :: rest =>
    if other = name then (name, value) :: rest else (other, old) :: setField name value rest

def maxEventFields : Nat := 128

def maxCollectionItems : Nat := 32

def maxDepth : Nat := 5

def keySuffix : Text := "key_suffix".toList

def truncatedItems (count : Nat) : Text :=
  "[truncated ".toList ++ Nat.toDigits 10 count ++ " items]".toList

def truncatedFields : Text := "truncated_fields".toList

/-- The branches of `_convert` before an object is looked into. -/
def convertWith (known suffixes : List Text) (deep : Nat → JsonValue) (field : Text)
    (value : Value) : JsonValue :=
  if isSensitiveField language field then .text redacted
  else
    match value with
    | .scalar scalar => .scalar scalar
    | .text text =>
      if field = keySuffix then .text (text.drop (text.length - 4))
      else .text (scrubText language known suffixes text)
    | .bytes size =>
      .object [("type".toList, .text "bytes".toList), ("size".toList, .scalar (.int size))]
    | .object identity => deep identity

/-- The number of fields that are looked at, with the depth that is left. -/
def fieldLimit (left : Nat) : Nat := if left = maxDepth then maxEventFields else maxCollectionItems

/-- The result for an object that is not too deep; `next` converts what it holds. -/
def convertObject (heap : Nat → Object) (limit : Nat) (seen : List Nat)
    (next : Text → Value → JsonValue) (field : Text) (identity : Nat) : JsonValue :=
  if identity ∈ seen then .text "[cycle]".toList
  else
    match heap identity with
    | .mapping items =>
      let kept := items.take limit
      let result := kept.foldl (fun result item =>
        setField item.1.written (next item.1.written item.2) result) []
      .object (if kept.length < items.length then
          setField truncatedFields (.scalar (.int (items.length - kept.length))) result
        else result)
    | .collection items =>
      let kept := items.take maxCollectionItems
      let result := kept.map (next field)
      .list (if kept.length < items.length then
          result ++ [.text (truncatedItems (items.length - kept.length))]
        else result)
    | .other typeName => .text (typeText typeName)

/-- `_convert`, with the depth that is left. -/
def convert (heap : Nat → Object) (known suffixes : List Text) :
    Nat → List Nat → Text → Value → JsonValue
  | 0, _, field, value =>
    convertWith language known suffixes (fun _ => .text "[max-depth]".toList) field value
  | left + 1, seen, field, value =>
    convertWith language known suffixes (fun identity =>
      convertObject heap (fieldLimit (left + 1)) seen
        (convert heap known suffixes left (identity :: seen)) field identity) field value

/-- `event.get("key_suffix")`, if it is a string that is not empty. -/
def eventSuffixes (items : List (Key × Value)) : List Text :=
  match items.find? fun item => match item.1 with
    | .text key => key == keySuffix
    | .other _ => false with
  | some (_, .text suffix) => if suffix = [] then [] else [suffix]
  | _ => []

/-- `sanitize_event`; an event that does not become a dict fails the assertion. -/
def sanitizeEvent (heap : Nat → Object) (known : List Text) (event : Nat) :
    Option (List (Text × JsonValue)) :=
  let suffixes := match heap event with
    | .mapping items => eventSuffixes items
    | _ => []
  match convert language heap known suffixes maxDepth [] "event".toList (.object event) with
  | .object fields => some fields
  | _ => none

end

/-! ## Secrets in a scrubbed text -/

section Scrubbing

variable {language : Language} {secret : Text}

/-- A secret that is no part of the texts a scrubbed text is marked with. -/
structure Unmarked (secret : Text) : Prop where
  solid : secret ≠ []
  openBracket : '[' ∉ secret
  closeBracket : ']' ∉ secret
  apartMarker : ¬ secret <:+: "redacted".toList
  apartCut : ¬ secret <:+: "truncated".toList
  ends : secret.getLast? ≠ some '…'

theorem Unmarked.resub {matchAt : Option Char → Text → Option (Nat × Text)}
    (unmarked : Unmarked secret) (marks : Marks redacted matchAt) {text : Text}
    (absent : ¬ secret <:+: text) : ¬ secret <:+: resub matchAt 0 none text :=
  @Marks.absent Char secret "redacted".toList '[' ']' matchAt marks unmarked.openBracket
    unmarked.closeBracket unmarked.apartMarker text absent

/-- A word that is replaced brings in no secret. -/
theorem Unmarked.replace (unmarked : Unmarked secret) {text : Text} (word : Text)
    (absent : ¬ secret <:+: text) :
    ¬ secret <:+: if word = [] then text else replaceAll word redacted text := by
  split
  · exact absent
  · next solid => exact unmarked.resub (wordAt_marks solid) absent

theorem Unmarked.foldl (unmarked : Unmarked secret) {words : List Text} {text : Text}
    (absent : ¬ secret <:+: text) :
    ¬ secret <:+: words.foldl (fun scrubbed word =>
      if word = [] then scrubbed else replaceAll word redacted scrubbed) text := by
  induction words generalizing text with
  | nil => exact absent
  | cons word rest ih => exact ih (unmarked.replace word absent)

/-- A known secret is gone when the known secrets are replaced. -/
theorem Unmarked.replaceWords (unmarked : Unmarked secret) {known : List Text}
    (among : secret ∈ known) (text : Text) : ¬ secret <:+: replaceWords known text := by
  have ordered : secret ∈ longestFirst known := List.mem_mergeSort.mpr among
  unfold Observability.replaceWords
  generalize longestFirst known = words at ordered
  induction words generalizing text with
  | nil => cases ordered
  | cons word rest ih =>
    rw [List.foldl_cons]
    by_cases same : word = secret
    · subst same
      refine unmarked.foldl ?_
      rw [if_neg unmarked.solid]
      exact @replaceAll_gone Char word "redacted".toList '[' ']' _ unmarked.solid
        unmarked.openBracket unmarked.closeBracket unmarked.apartMarker text
    · rcases List.mem_cons.mp ordered with here | later
      · exact absurd here.symm same
      · exact ih _ later

/-- A cut text has no secret across the cut. -/
theorem Unmarked.truncate (unmarked : Unmarked secret) {text : Text} (limit : Nat)
    (absent : ¬ secret <:+: text) : ¬ secret <:+: text.take limit ++ truncatedEnd := by
  have parts : text.take limit ++ truncatedEnd =
      (text.take limit ++ ['…']) ++ '[' :: ("truncated".toList ++ ']' :: []) := by
    rw [List.append_assoc]
    rfl
  rw [parts]
  refine absent_around unmarked.openBracket unmarked.closeBracket unmarked.apartCut ?_ ?_
  · rintro ⟨front, back, same⟩
    cases back using List.reverseRecOn with
    | nil =>
      rw [List.append_nil] at same
      have last := congrArg List.getLast? same
      rw [List.getLast?_append_of_ne_nil _ unmarked.solid, List.getLast?_concat] at last
      exact unmarked.ends last
    | append_singleton back c =>
      rw [← List.append_assoc] at same
      have front' := (List.append_inj' same rfl).1
      have whole := List.IsPrefix.isInfix <| List.take_prefix limit text
      exact absent (List.IsInfix.trans ⟨front, back, front'⟩ whole)
  · intro stands
    exact unmarked.solid (List.infix_nil.mp stands)

/-- A scrubbed text holds no known secret. -/
theorem scrubText_absent (unmarked : Unmarked secret) {known suffixes : List Text}
    (among : secret ∈ known) (value : Text) :
    ¬ secret <:+: scrubText language known suffixes value := by
  have gone := unmarked.replaceWords among value
  have gone : ¬ secret <:+: replaceWords suffixes (replaceWords known value) := unmarked.foldl gone
  have gone := unmarked.resub authPattern_marks gone
  have gone := unmarked.resub urlPattern_marks gone
  have gone := unmarked.resub queryPattern_marks gone
  have gone := unmarked.resub (telegramPattern_marks language) gone
  have gone := unmarked.resub credentialPattern_marks gone
  unfold scrubText
  dsimp only
  split
  · exact unmarked.truncate _ gone
  · exact gone

end Scrubbing

/-! ## The registry over a run -/

/-- A step of the process: a secret is registered, or an event is logged. -/
inductive Step where
  | register (secret : Text)
  | log (heap : Nat → Object) (event : Nat)

def SecretRegistry.step (registry : SecretRegistry) : Step → SecretRegistry
  | .register secret => registry.registerSecret secret
  | .log _ _ => registry

/-- The registry after the steps of a run. -/
def registryAfter (steps : List Step) : SecretRegistry :=
  steps.foldl SecretRegistry.step .empty

/-- The secrets that a run registers. -/
def registered (steps : List Step) : List Text :=
  (steps.filterMap fun step => match step with
    | .register secret => some secret
    | .log _ _ => none).filter fun secret => decide (secret ≠ [])

theorem registered_register (steps : List Step) (secret : Text) :
    registered (steps ++ [.register secret]) =
      registered steps ++ if secret = [] then [] else [secret] := by
  unfold registered
  rw [List.filterMap_append, List.filter_append]
  congr 1
  by_cases empty : secret = [] <;> simp [empty]

theorem registered_log (steps : List Step) (heap : Nat → Object) (event : Nat) :
    registered (steps ++ [.log heap event]) = registered steps := by
  unfold registered
  rw [List.filterMap_append, List.filter_append]
  simp

/-- What the registry holds of the secrets that were registered. -/
structure SecretRegistry.Holds (registry : SecretRegistry) (secrets : List Text) : Prop where
  nodup : registry.known.Nodup
  same : registry.order.length = registry.known.length
  exact : ∀ secret, secret ∈ registry.known ↔ secret ∈ secrets

/-- As long as they are not too many, every registered secret is known. -/
theorem registryAfter_holds {steps : List Step}
    (few : (registered steps).dedup.length ≤ maxRegisteredSecrets) :
    (registryAfter steps).Holds (registered steps) := by
  induction steps using List.reverseRecOn with
  | nil => exact ⟨List.nodup_nil, rfl, fun secret => Iff.rfl⟩
  | append_singleton steps step ih =>
    have after : registryAfter (steps ++ [step]) = (registryAfter steps).step step := by
      unfold registryAfter
      rw [List.foldl_append]
      rfl
    rw [after]
    cases step with
    | log heap event =>
      rw [registered_log] at few ⊢
      exact ih few
    | register secret =>
      rw [registered_register] at few ⊢
      have fewer : (registered steps).dedup.length ≤ maxRegisteredSecrets := by
        refine Nat.le_trans (List.subperm_of_subset (List.nodup_dedup _) ?_).length_le few
        intro each member
        exact List.mem_dedup.mpr (List.mem_append_left _ (List.mem_dedup.mp member))
      have holds := ih fewer
      change ((registryAfter steps).registerSecret secret).Holds _
      unfold SecretRegistry.registerSecret
      by_cases empty : secret = []
      · rw [if_pos empty, if_pos empty, List.append_nil]
        exact holds
      · rw [if_neg empty] at few ⊢
        rw [if_neg empty]
        by_cases known : secret ∈ (registryAfter steps).known
        · rw [if_pos known]
          refine ⟨holds.nodup, holds.same, ?_⟩
          intro each
          rw [List.mem_append, List.mem_singleton, holds.exact]
          constructor
          · exact .inl
          · rintro (member | rfl)
            · exact member
            · exact (holds.exact _).mp known
        · rw [if_neg known]
          have nodup := List.nodup_cons.mpr ⟨known, holds.nodup⟩
          have members : ∀ each, each ∈ secret :: (registryAfter steps).known ↔
              each ∈ registered steps ++ [secret] := by
            intro each
            rw [List.mem_cons, List.mem_append, List.mem_singleton, holds.exact, or_comm]
          have bound : (secret :: (registryAfter steps).known).length ≤
              maxRegisteredSecrets := by
            refine Nat.le_trans (List.subperm_of_subset nodup ?_).length_le few
            intro each member
            exact List.mem_dedup.mpr ((members each).mp member)
          have length : ((registryAfter steps).order ++ [secret]).length =
              (secret :: (registryAfter steps).known).length := by
            rw [List.length_append, holds.same]
            rfl
          rw [SecretRegistry.expire_few (by rw [length]; exact bound)]
          exact ⟨nodup, length, members⟩

end BobbyBotique.Observability
