import BobbyBotique.Foundation.Base64
import BobbyBotique.Foundation.JsonText
import Mathlib.Data.List.Nodup

/-!
# The payload of a job

`enqueue_job` prints the data of a job with bytes as an object of one key, and
`_run_claim` reads the text with a hook that turns such objects back.  The hook cannot
tell them from a dict of the caller.
-/

namespace BobbyBotique.Queue

open JsonText Base64

/-- A tree of Python values; a dict lists its items in order. -/
inductive Data where
  | null
  | bool (value : Bool)
  | int (value : Int)
  | str (value : List Char)
  | bytes (value : List UInt8)
  | list (items : List Data)
  | dict (fields : List (List Char × Data))

def queueBytes : List Char := "$queue_bytes".toList

namespace Data

mutual

/-- What `json.dumps` makes of a value with `default=_encode`. -/
def encode : Data → JsonTree
  | .null => .null
  | .bool value => .bool value
  | .int value => .int value
  | .str value => .str value
  | .bytes value => .obj [(queueBytes, .str (b64encode value))]
  | .list items => .arr (encodeItems items)
  | .dict fields => .obj (encodeFields fields)

def encodeItems : List Data → List JsonTree
  | [] => []
  | item :: rest => encode item :: encodeItems rest

def encodeFields : List (List Char × Data) → List (List Char × JsonTree)
  | [] => []
  | (key, value) :: rest => (key, encode value) :: encodeFields rest

end

/-- A dict from the pairs of an object, where the last value of a key counts. -/
def put (fields : List (List Char × Data)) (field : List Char × Data) :
    List (List Char × Data) :=
  if (fields.map Prod.fst).contains field.1 then
    fields.map fun old => if old.1 = field.1 then field else old
  else fields ++ [field]

def dictOf (pairs : List (List Char × Data)) : List (List Char × Data) := pairs.foldl put []

/-- `base64.b64decode(value, validate=True)`, which takes ASCII text and bytes. -/
def b64decodeValue : Data → Option (List UInt8)
  | .str text => if text.all fun c => c.toNat < 128 then b64decode text else none
  | .bytes text => b64decode (text.map fun byte => Char.ofNat byte.toNat)
  | _ => none

/-- `_decode`. -/
def decode (fields : List (List Char × Data)) : Option Data :=
  match fields with
  | [(key, value)] =>
    if key = queueBytes then (b64decodeValue value).map .bytes else some (.dict fields)
  | _ => some (.dict fields)

/-- The values that `json.loads` makes with `object_hook=_decode`. -/
def hooked : Builder Data where
  null := .null
  bool := .bool
  int := .int
  str := .str
  arr := .list
  obj := fun pairs => decode (dictOf pairs)

mutual

/-- The keys of every dict in the value are distinct, as they are in Python. -/
def Proper : Data → Prop
  | .list items => ProperItems items
  | .dict fields => (fields.map Prod.fst).Nodup ∧ ProperFields fields
  | _ => True

def ProperItems : List Data → Prop
  | [] => True
  | item :: rest => item.Proper ∧ ProperItems rest

def ProperFields : List (List Char × Data) → Prop
  | [] => True
  | (_, value) :: rest => value.Proper ∧ ProperFields rest

end

/-- Exactly the one key of the marker. -/
def isMarker (fields : List (List Char × Data)) : Bool :=
  fields.map Prod.fst == [queueBytes]

mutual

/-- No dict in the value has the key of the marker and no other. -/
def unmarked : Data → Bool
  | .list items => unmarkedItems items
  | .dict fields => !isMarker fields && unmarkedFields fields
  | _ => true

def unmarkedItems : List Data → Bool
  | [] => true
  | item :: rest => item.unmarked && unmarkedItems rest

def unmarkedFields : List (List Char × Data) → Bool
  | [] => true
  | (_, value) :: rest => value.unmarked && unmarkedFields rest

end

/-! ## The hook on one dict -/

theorem put_new {fields : List (List Char × Data)} {field : List Char × Data}
    (new : field.1 ∉ fields.map Prod.fst) : put fields field = fields ++ [field] := by
  unfold put
  rw [if_neg]
  exact fun among => new (List.contains_iff_mem.mp among)

theorem foldl_put (pairs before : List (List Char × Data))
    (nodup : ((before ++ pairs).map Prod.fst).Nodup) :
    pairs.foldl put before = before ++ pairs := by
  induction pairs generalizing before with
  | nil => exact (List.append_nil before).symm
  | cons field rest ih =>
    have new : field.1 ∉ before.map Prod.fst := by
      intro among
      rw [List.map_append, List.map_cons] at nodup
      exact List.disjoint_of_nodup_append nodup among List.mem_cons_self
    rw [List.foldl_cons, put_new new, ih]
    · rw [List.append_assoc, List.singleton_append]
    · rwa [List.append_assoc, List.singleton_append]

theorem dictOf_nodup {pairs : List (List Char × Data)} (nodup : (pairs.map Prod.fst).Nodup) :
    dictOf pairs = pairs := foldl_put pairs [] nodup

theorem decode_unmarked {fields : List (List Char × Data)} (plain : isMarker fields = false) :
    decode fields = some (.dict fields) := by
  unfold decode
  split
  · next key value =>
      refine if_neg ?_
      rintro rfl
      cases plain.symm.trans (beq_self_eq_true [queueBytes])
  · rfl

/-- A dict with the key of the marker does not come back. -/
theorem decode_marked {fields : List (List Char × Data)} (marked : isMarker fields = true)
    (original : List (List Char × Data)) : decode fields ≠ some (.dict original) := by
  have keys : fields.map Prod.fst = [queueBytes] := eq_of_beq marked
  obtain ⟨⟨key, value⟩, rfl, same⟩ := List.map_eq_singleton_iff.mp keys
  obtain rfl : key = queueBytes := same
  unfold decode
  dsimp only
  rw [if_pos rfl]
  intro back
  obtain ⟨read, _, absurd⟩ := Option.map_eq_some_iff.mp back
  cases absurd

theorem b64decodeValue_b64encode (value : List UInt8) :
    b64decodeValue (.str (b64encode value)) = some value := by
  have ascii : (b64encode value).all (fun c => c.toNat < 128) = true := by
    rw [List.all_eq_true]
    exact fun c among => decide_eq_true (b64encode_ascii value c among)
  unfold b64decodeValue
  dsimp only
  rw [if_pos ascii, b64decode_b64encode]

/-! ## The hook on a tree -/

theorem build_keys {fields : List (List Char × Data)} {made : List (List Char × Data)}
    (built : buildFields hooked (encodeFields fields) = some made) :
    made.map Prod.fst = fields.map Prod.fst := by
  induction fields generalizing made with
  | nil =>
    cases built
    rfl
  | cons field rest ih =>
    obtain ⟨key, value⟩ := field
    obtain ⟨first, _, later⟩ := Option.bind_eq_some_iff.mp built
    obtain ⟨more, read, rfl⟩ := Option.map_eq_some_iff.mp later
    rw [List.map_cons, List.map_cons, ih read]

theorem build_bytes (value : List UInt8) :
    build hooked (encode (.bytes value)) = some (.bytes value) := by
  have read := b64decodeValue_b64encode value
  show decode (dictOf [(queueBytes, .str (b64encode value))]) = _
  have single : dictOf [(queueBytes, .str (b64encode value))] = [(queueBytes, _)] :=
    dictOf_nodup (List.nodup_singleton queueBytes)
  rw [single]
  unfold decode
  dsimp only
  rw [if_pos rfl, read]
  rfl

mutual

theorem build_encode : (data : Data) → data.Proper →
    (build hooked (encode data) = some data ↔ data.unmarked = true)
  | .null, _ => ⟨fun _ => rfl, fun _ => rfl⟩
  | .bool _, _ => ⟨fun _ => rfl, fun _ => rfl⟩
  | .int _, _ => ⟨fun _ => rfl, fun _ => rfl⟩
  | .str _, _ => ⟨fun _ => rfl, fun _ => rfl⟩
  | .bytes value, _ => ⟨fun _ => rfl, fun _ => build_bytes value⟩
  | .list items, proper => by
      rw [unmarked, ← build_encodeItems items proper]
      constructor
      · intro back
        obtain ⟨made, built, same⟩ := Option.map_eq_some_iff.mp back
        cases same
        exact built
      · intro built
        exact Option.map_eq_some_iff.mpr ⟨items, built, rfl⟩
  | .dict fields, ⟨nodup, proper⟩ => by
      have inside := build_encodeFields fields proper
      rw [unmarked, Bool.and_eq_true_iff, ← inside, Bool.not_eq_true']
      constructor
      · intro back
        obtain ⟨made, built, read⟩ := Option.bind_eq_some_iff.mp back
        have keys := build_keys built
        have distinct : (made.map Prod.fst).Nodup := keys ▸ nodup
        have hook : decode made = some (.dict fields) := by
          rw [← dictOf_nodup distinct]
          exact read
        have plain : isMarker made = false :=
          eq_false_of_ne_true fun marked => decode_marked marked fields hook
        rw [decode_unmarked plain] at hook
        cases hook
        exact ⟨plain, built⟩
      · rintro ⟨plain, built⟩
        refine Option.bind_eq_some_iff.mpr ⟨fields, built, ?_⟩
        show decode (dictOf fields) = _
        rw [dictOf_nodup nodup, decode_unmarked plain]

theorem build_encodeItems : (items : List Data) → ProperItems items →
    (buildItems hooked (encodeItems items) = some items ↔ unmarkedItems items = true)
  | [], _ => ⟨fun _ => rfl, fun _ => rfl⟩
  | item :: rest, ⟨first, proper⟩ => by
      rw [unmarkedItems, Bool.and_eq_true_iff, ← build_encode item first,
        ← build_encodeItems rest proper]
      constructor
      · intro back
        obtain ⟨made, built, later⟩ := Option.bind_eq_some_iff.mp back
        obtain ⟨more, read, same⟩ := Option.map_eq_some_iff.mp later
        cases same
        exact ⟨built, read⟩
      · rintro ⟨built, read⟩
        exact Option.bind_eq_some_iff.mpr
          ⟨item, built, Option.map_eq_some_iff.mpr ⟨rest, read, rfl⟩⟩

theorem build_encodeFields : (fields : List (List Char × Data)) → ProperFields fields →
    (buildFields hooked (encodeFields fields) = some fields ↔ unmarkedFields fields = true)
  | [], _ => ⟨fun _ => rfl, fun _ => rfl⟩
  | (key, value) :: rest, ⟨first, proper⟩ => by
      rw [unmarkedFields, Bool.and_eq_true_iff, ← build_encode value first,
        ← build_encodeFields rest proper]
      constructor
      · intro back
        obtain ⟨made, built, later⟩ := Option.bind_eq_some_iff.mp back
        obtain ⟨more, read, same⟩ := Option.map_eq_some_iff.mp later
        cases same
        exact ⟨built, read⟩
      · rintro ⟨built, read⟩
        exact Option.bind_eq_some_iff.mpr
          ⟨value, built, Option.map_eq_some_iff.mpr ⟨rest, read, rfl⟩⟩

end

end Data

/-! ## From `enqueue_job` to `_run_claim` -/

/-- The data of a job: a dict of Python. -/
structure JobData where
  fields : List (List Char × Data)
  proper : (Data.dict fields).Proper

/-- The part of the context that goes with a job. -/
structure LogContext where
  requestId : Option (List Char)
  traceId : Option (List Char)
  spanId : Option (List Char)
  userId : Option Int
  chatId : Option Int
  operation : Option (List Char)

def optionalText (value : Option (List Char)) : Data := value.elim .null .str

def optionalInt (value : Option Int) : Data := value.elim .null .int

def exportJobContext (context : LogContext) : Data :=
  .dict [("schema_version".toList, .int 1), ("request_id".toList, optionalText context.requestId),
    ("trace_id".toList, optionalText context.traceId),
    ("span_id".toList, optionalText context.spanId),
    ("user_id".toList, optionalInt context.userId),
    ("chat_id".toList, optionalInt context.chatId),
    ("operation".toList, optionalText context.operation)]

/-- The payload that `enqueue_job` stores. -/
def enqueuePayload (job : JobData) (context : LogContext) : List Char :=
  dumps (Data.encode (.dict [("data".toList, .dict job.fields),
    ("context".toList, exportJobContext context)]))

/-- The data that `_run_claim` takes from a payload, where it is not refused. -/
def claimedData (payload : List Char) : Option (List (List Char × Data)) :=
  match loads Data.hooked payload with
  | some (.dict fields) =>
    match fields.lookup "data".toList with
    | some (.dict data) => some data
    | _ => none
  | _ => none

theorem optionalText_kept (value : Option (List Char)) :
    (optionalText value).Proper ∧ (optionalText value).unmarked = true := by
  cases value with
  | none | some => exact ⟨trivial, rfl⟩

theorem optionalInt_kept (value : Option Int) :
    (optionalInt value).Proper ∧ (optionalInt value).unmarked = true := by
  cases value with
  | none | some => exact ⟨trivial, rfl⟩

/-- The context comes back. -/
theorem build_context (context : LogContext) :
    build Data.hooked (Data.encode (exportJobContext context)) =
      some (exportJobContext context) := by
  have request := optionalText_kept context.requestId
  have trace := optionalText_kept context.traceId
  have span := optionalText_kept context.spanId
  have user := optionalInt_kept context.userId
  have chat := optionalInt_kept context.chatId
  have operation := optionalText_kept context.operation
  have proper : (exportJobContext context).Proper := by
    refine ⟨?_, trivial, request.1, trace.1, span.1, user.1, chat.1, operation.1, trivial⟩
    show ["schema_version".toList, "request_id".toList, "trace_id".toList, "span_id".toList,
      "user_id".toList, "chat_id".toList, "operation".toList].Nodup
    decide
  apply (Data.build_encode _ proper).mpr
  simp only [exportJobContext, Data.unmarked, Data.unmarkedFields, request.2, trace.2, span.2,
    user.2, chat.2, operation.2, Bool.and_true, Bool.not_eq_true']
  rfl

theorem claimedData_enqueuePayload (job : JobData) (context : LogContext) :
    claimedData (enqueuePayload job context) =
      match build Data.hooked (Data.encode (.dict job.fields)) with
      | some (.dict data) => some data
      | _ => none := by
  unfold claimedData enqueuePayload
  rw [loads_dumps]
  have built : build Data.hooked (Data.encode (.dict [("data".toList, .dict job.fields),
      ("context".toList, exportJobContext context)])) =
      (build Data.hooked (Data.encode (.dict job.fields))).bind fun data =>
        some (.dict [("data".toList, data), ("context".toList, exportJobContext context)]) := by
    show (buildFields Data.hooked [("data".toList, Data.encode (.dict job.fields)),
      ("context".toList, Data.encode (exportJobContext context))]).bind _ = _
    rw [buildFields, buildFields, build_context]
    cases build Data.hooked (Data.encode (.dict job.fields)) with
    | none | some => rfl
  rw [built]
  cases build Data.hooked (Data.encode (.dict job.fields)) with
  | none => rfl
  | some data =>
    show (match [("data".toList, data), ("context".toList, exportJobContext context)].lookup
        "data".toList with
      | some (.dict data) => some data
      | _ => none) = _
    rfl

/-- The data of a job comes back exactly if no dict in it looks like encoded bytes. -/
theorem job_data_comes_back_iff (job : JobData) (context : LogContext) :
    claimedData (enqueuePayload job context) = some job.fields ↔
      (Data.dict job.fields).unmarked = true := by
  rw [claimedData_enqueuePayload, ← Data.build_encode (.dict job.fields) job.proper]
  constructor
  · intro back
    split at back
    · next data built =>
        cases back
        exact built
    · cases back
  · intro built
    rw [built]

/-- A note of the caller with the key of the marker. -/
def markedJob : JobData where
  fields := [("note".toList, .dict [(queueBytes, .str "aGk=".toList)])]
  proper := ⟨List.nodup_singleton _, ⟨List.nodup_singleton _, trivial, trivial⟩, trivial⟩

/-- The same with text that is not encoded bytes. -/
def refusedJob : JobData where
  fields := [("note".toList, .dict [(queueBytes, .str "hi".toList)])]
  proper := ⟨List.nodup_singleton _, ⟨List.nodup_singleton _, trivial, trivial⟩, trivial⟩

/-- A dict of the caller turns into bytes, or the job is refused. -/
theorem marked_job_is_lost :
    claimedData (enqueuePayload markedJob ⟨none, none, none, none, none, none⟩) =
        some [("note".toList, .bytes [104, 105])] ∧
      claimedData (enqueuePayload refusedJob ⟨none, none, none, none, none, none⟩) = none := by
  constructor
  · rw [claimedData_enqueuePayload]
    rfl
  · rw [claimedData_enqueuePayload]
    rfl

end BobbyBotique.Queue
