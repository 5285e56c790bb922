import BobbyBotique.Settings.Store

/-!
# The document format is closed

What the reader accepts meets the conditions of `Document.Checked`, and a
document that meets them is read back from its own JSON.  A change that passes
its validation gives such a document again.
-/

namespace BobbyBotique.Settings

section

variable {α β : Type} {ε : Type}

theorem bind_eq_ok {first : Except ε α} {next : α → Except ε β} {result : β} :
    first >>= next = .ok result ↔ ∃ value, first = .ok value ∧ next value = .ok result := by
  cases first with
  | error message =>
    constructor
    · intro absurd
      cases absurd
    · rintro ⟨_, absurd, _⟩
      cases absurd
  | ok value =>
    constructor
    · intro same
      exact ⟨value, rfl, same⟩
    · rintro ⟨read, known, same⟩
      cases known
      exact same

theorem require_eq_ok {holds : Bool} {message : String} {result : Unit} :
    require holds message = .ok result ↔ holds = true := by
  cases holds
  · exact ⟨fun absurd => (by cases absurd), fun absurd => (by cases absurd)⟩
  · exact ⟨fun _ => rfl, fun _ => rfl⟩

end

/-! ## Finite values -/

mutual

/-- Every float in the value is finite. -/
def finite : Json → Bool
  | .float _ size => size.isSome
  | .arr items => finiteItems items
  | .obj fields => finiteFields fields
  | _ => true

def finiteItems : List Json → Bool
  | [] => true
  | value :: rest => finite value && finiteItems rest

def finiteFields : List (String × Json) → Bool
  | [] => true
  | (_, value) :: rest => finite value && finiteFields rest

end

mutual

theorem finite_of_validateJson : ∀ (value : Json) (depth : Nat),
    validateJson depth value = .ok () → finite value = true
  | .null, _, _ => rfl
  | .bool _, _, _ => rfl
  | .int _, _, _ => rfl
  | .str _, _, _ => rfl
  | .float _ size, depth, valid => by
      obtain ⟨_, _, valid⟩ := bind_eq_ok.mp valid
      exact require_eq_ok.mp valid
  | .arr items, depth, valid => by
      obtain ⟨_, _, valid⟩ := bind_eq_ok.mp valid
      exact finite_of_validateItems items (depth + 1) valid
  | .obj fields, depth, valid => by
      obtain ⟨_, _, valid⟩ := bind_eq_ok.mp valid
      exact finite_of_validateFields fields (depth + 1) valid

theorem finite_of_validateItems : ∀ (items : List Json) (depth : Nat),
    validateItems depth items = .ok () → finiteItems items = true
  | [], _, _ => rfl
  | value :: rest, depth, valid => by
      obtain ⟨_, first, valid⟩ := bind_eq_ok.mp valid
      exact Bool.and_eq_true_iff.mpr
        ⟨finite_of_validateJson value depth first, finite_of_validateItems rest depth valid⟩

theorem finite_of_validateFields : ∀ (fields : List (String × Json)) (depth : Nat),
    validateFields depth fields = .ok () → finiteFields fields = true
  | [], _, _ => rfl
  | (_, value) :: rest, depth, valid => by
      obtain ⟨_, first, valid⟩ := bind_eq_ok.mp valid
      exact Bool.and_eq_true_iff.mpr
        ⟨finite_of_validateJson value depth first, finite_of_validateFields rest depth valid⟩

end

theorem finiteItems_map_str (texts : List String) : finiteItems (texts.map .str) = true := by
  induction texts with
  | nil => rfl
  | cons text rest ih => exact ih

section

variable (codec : Codec)

/-- What `orjson` does: it reads back what it prints, unless a float in it is not
finite.  It prints an empty dict, and no dict repeats a name. -/
structure Faithful : Prop where
  back : ∀ value text, finite value = true → codec.dumps value = some text →
    codec.loads text = some value
  empty : codec.dumps (.obj []) = some "\x7b\x7d"

variable {codec}

theorem roundTrip_eq (faithful : Faithful codec) {value read : Json} (known : finite value = true)
    (same : roundTrip codec value = .ok read) : read = value := by
  unfold roundTrip at same
  cases printed : codec.dumps value with
  | none => rw [printed] at same; cases same
  | some text =>
    rw [printed] at same
    dsimp only at same
    rw [faithful.back value text known printed] at same
    injection same with same
    exact same.symm

/-! ## Checked values -/

/-- Every name of the values is an accepted key. -/
theorem keys_of_checkFields {values : Values} (valid : checkFields codec values = .ok ()) :
    (∀ field ∈ values, keyAccepted field.1 = true) ∧ finiteFields values = true := by
  induction values with
  | nil => exact ⟨fun _ absurd => (List.not_mem_nil absurd).elim, rfl⟩
  | cons field rest ih =>
    obtain ⟨key, value⟩ := field
    obtain ⟨_, accepted, valid⟩ := bind_eq_ok.mp valid
    obtain ⟨_, known, valid⟩ := bind_eq_ok.mp valid
    obtain ⟨_, _, valid⟩ := bind_eq_ok.mp valid
    obtain ⟨keys, others⟩ := ih valid
    constructor
    · intro field among
      rcases List.mem_cons.mp among with rfl | among
      · exact require_eq_ok.mp accepted
      · exact keys field among
    · exact Bool.and_eq_true_iff.mpr ⟨finite_of_validateJson value 0 known, others⟩

theorem checkValues_cases {values : Values} (valid : checkValues codec values = .ok ()) :
    values.length ≤ 512 ∧ (∀ field ∈ values, keyAccepted field.1 = true) ∧
      finiteFields values = true := by
  obtain ⟨_, few, valid⟩ := bind_eq_ok.mp valid
  obtain ⟨_, fields, valid⟩ := bind_eq_ok.mp valid
  exact ⟨of_decide_eq_true (require_eq_ok.mp few), keys_of_checkFields fields⟩

/-! ## Checked documents -/

variable (codec)

/-- What `_decode` checks of a history entry or of the document. -/
structure Entry.Checked (entry : Entry) : Prop where
  values : checkValues codec entry.values = .ok ()
  actor : entry.actor.length ≤ 128
  at_ : entry.at_.length ≤ 64
  keys : ∀ key ∈ entry.changedKeys, keyAccepted key = true
  few : entry.changedKeys.length ≤ 1024
  nodup : entry.changedKeys.Nodup

/-- What `_decode` checks of a stored document. -/
structure Document.Checked (document : Document) : Prop where
  entries : ∀ entry ∈ document.history, entry.Checked codec
  current : document.current.Checked codec
  length : document.history.length ≤ historyLimit
  ordered : (document.history ++ [document.current]).Pairwise fun first second =>
    first.revision < second.revision
  positive : ∀ entry ∈ document.history ++ [document.current], -1 < entry.revision

variable {codec}

/-! ## What the reader accepts is checked -/

theorem readString_cases {fields : Values} {name : String} {limit : Nat} {message text : String}
    (accepted : readString fields name limit message = .ok text) : text.length ≤ limit := by
  unfold readString at accepted
  split at accepted
  · cases accepted
    exact Nat.zero_le limit
  · split at accepted
    · next short =>
        cases accepted
        exact short
    · cases accepted
  · cases accepted

theorem readKeys_cases {items : List Json} {keys : List String}
    (accepted : readKeys items = .ok keys) :
    keys.length = items.length ∧ ∀ key ∈ keys, keyAccepted key = true := by
  induction items generalizing keys with
  | nil =>
    cases accepted
    exact ⟨rfl, fun _ absurd => (List.not_mem_nil absurd).elim⟩
  | cons item rest ih =>
    cases item with
    | str key =>
      obtain ⟨_, first, accepted⟩ := bind_eq_ok.mp accepted
      obtain ⟨others, later, accepted⟩ := bind_eq_ok.mp accepted
      cases accepted
      obtain ⟨length, all⟩ := ih later
      refine ⟨congrArg (· + 1) length, ?_⟩
      intro other among
      rcases List.mem_cons.mp among with rfl | among
      · exact require_eq_ok.mp first
      · exact all other among
    | _ => cases accepted

theorem readChangedKeys_cases {fields : Values} {keys : List String}
    (accepted : readChangedKeys fields = .ok keys) :
    (∀ key ∈ keys, keyAccepted key = true) ∧ keys.length ≤ 1024 ∧ keys.Nodup := by
  unfold readChangedKeys at accepted
  split at accepted
  · cases accepted
    exact ⟨fun _ absurd => (List.not_mem_nil absurd).elim, Nat.zero_le _, List.nodup_nil⟩
  · next items _ =>
      obtain ⟨_, few, accepted⟩ := bind_eq_ok.mp accepted
      obtain ⟨read, all, accepted⟩ := bind_eq_ok.mp accepted
      obtain ⟨_, nodup, accepted⟩ := bind_eq_ok.mp accepted
      cases accepted
      obtain ⟨length, accepted⟩ := readKeys_cases all
      have bound : items.length ≤ 1024 := of_decide_eq_true (require_eq_ok.mp few)
      exact ⟨accepted, length ▸ bound, of_decide_eq_true (require_eq_ok.mp nodup)⟩
  · cases accepted

theorem readEntry_cases {isDocument : Bool} {previous : Int} {item : Json} {entry : Entry}
    (accepted : readEntry codec isDocument previous item = .ok entry) :
    previous < entry.revision ∧ entry.Checked codec := by
  unfold readEntry at accepted
  split at accepted
  case h_2 => cases accepted
  split at accepted
  case h_2 => cases accepted
  obtain ⟨_, later, accepted⟩ := bind_eq_ok.mp accepted
  obtain ⟨_, _, accepted⟩ := bind_eq_ok.mp accepted
  split at accepted
  case h_2 => cases accepted
  obtain ⟨_, values, accepted⟩ := bind_eq_ok.mp accepted
  obtain ⟨actor, short, accepted⟩ := bind_eq_ok.mp accepted
  obtain ⟨at_, brief, accepted⟩ := bind_eq_ok.mp accepted
  obtain ⟨keys, changed, accepted⟩ := bind_eq_ok.mp accepted
  cases accepted
  obtain ⟨all, few, nodup⟩ := readChangedKeys_cases changed
  exact ⟨of_decide_eq_true (require_eq_ok.mp later),
    { values := values, actor := readString_cases short, at_ := readString_cases brief
      keys := all, few := few, nodup := nodup }⟩

/-- The entries read lie between the previous revision and the last one, in order. -/
theorem readEntries_cases {previous last : Int} {items : List Json} {entries : List Entry}
    (accepted : readEntries codec previous items = .ok (entries, last)) :
    entries.length = items.length ∧ previous ≤ last ∧ (∀ entry ∈ entries, entry.Checked codec) ∧
      (∀ entry ∈ entries, previous < entry.revision ∧ entry.revision ≤ last) ∧
      entries.Pairwise fun first second => first.revision < second.revision := by
  induction items generalizing previous entries last with
  | nil =>
    cases accepted
    exact ⟨rfl, le_rfl, fun _ absurd => (List.not_mem_nil absurd).elim,
      fun _ absurd => (List.not_mem_nil absurd).elim, List.Pairwise.nil⟩
  | cons item rest ih =>
    obtain ⟨entry, first, accepted⟩ := bind_eq_ok.mp accepted
    obtain ⟨⟨others, final⟩, later, accepted⟩ := bind_eq_ok.mp accepted
    cases accepted
    obtain ⟨after, checked⟩ := readEntry_cases first
    obtain ⟨length, upTo, all, between, ordered⟩ := ih later
    refine ⟨congrArg (· + 1) length, by omega, ?_, ?_, ?_⟩
    · intro other among
      rcases List.mem_cons.mp among with rfl | among
      · exact checked
      · exact all other among
    · intro other among
      rcases List.mem_cons.mp among with rfl | among
      · exact ⟨after, upTo⟩
      · have := between other among
        omega
    · exact List.Pairwise.cons (fun other among => (between other among).1) ordered

theorem readDocument_cases {json : Json} {document : Document}
    (accepted : readDocument codec json = .ok document) : document.Checked codec := by
  unfold readDocument at accepted
  split at accepted
  case h_2 => cases accepted
  split at accepted
  case h_2 => cases accepted
  obtain ⟨_, _, accepted⟩ := bind_eq_ok.mp accepted
  split at accepted
  case h_2 => cases accepted
  next items _ =>
  obtain ⟨_, few, accepted⟩ := bind_eq_ok.mp accepted
  obtain ⟨⟨history, last⟩, read, accepted⟩ := bind_eq_ok.mp accepted
  obtain ⟨current, final, accepted⟩ := bind_eq_ok.mp accepted
  cases accepted
  obtain ⟨length, upTo, all, between, ordered⟩ := readEntries_cases read
  obtain ⟨later, checked⟩ := readEntry_cases final
  have bound : items.length ≤ historyLimit := of_decide_eq_true (require_eq_ok.mp few)
  refine ⟨all, checked, length ▸ bound, ?_, ?_⟩
  · refine List.pairwise_append.mpr ⟨ordered, List.pairwise_singleton _ _, ?_⟩
    intro entry among other same
    cases List.mem_singleton.mp same
    exact lt_of_le_of_lt (between entry among).2 later
  · intro entry among
    rcases List.mem_append.mp among with among | among
    · exact (between entry among).1
    · cases List.mem_singleton.mp among
      exact lt_of_le_of_lt upTo later

/-! ## A checked document is read back -/

theorem readKeys_map_str {keys : List String} (all : ∀ key ∈ keys, keyAccepted key = true) :
    readKeys (keys.map .str) = .ok keys := by
  induction keys with
  | nil => rfl
  | cons key rest ih =>
    refine bind_eq_ok.mpr ⟨(), require_eq_ok.mpr (all key List.mem_cons_self), ?_⟩
    exact bind_eq_ok.mpr ⟨rest, ih fun other among => all other (List.mem_cons_of_mem key among),
      rfl⟩

theorem readString_of_get {fields : Values} {name text : String} {limit : Nat} (message : String)
    (found : get fields name = some (.str text)) (short : text.length ≤ limit) :
    readString fields name limit message = .ok text := by
  unfold readString
  rw [found]
  exact if_pos short

theorem readChangedKeys_of_get {fields : Values} {entry : Entry} (checked : entry.Checked codec)
    (found : get fields "changed_keys" = some (.arr (entry.changedKeys.map .str))) :
    readChangedKeys fields = .ok entry.changedKeys := by
  unfold readChangedKeys
  rw [found]
  refine bind_eq_ok.mpr ⟨(), require_eq_ok.mpr ?_, ?_⟩
  · exact decide_eq_true ((List.length_map _).trans_le checked.few)
  · exact bind_eq_ok.mpr ⟨entry.changedKeys, readKeys_map_str checked.keys,
      bind_eq_ok.mpr ⟨(), require_eq_ok.mpr (decide_eq_true checked.nodup), rfl⟩⟩

/-- A dict with the five fields of a checked entry is read as the entry. -/
theorem readEntry_of_get {isDocument : Bool} {previous : Int} {fields : Values} {entry : Entry}
    (checked : entry.Checked codec) (later : previous < entry.revision)
    (named : (isDocument || namesAre fields entryFields) = true)
    (revision : get fields "revision" = some (.int entry.revision))
    (values : get fields "values" = some (.obj entry.values))
    (actor : get fields "actor" = some (.str entry.actor))
    (at_ : get fields "at" = some (.str entry.at_))
    (changed : get fields "changed_keys" = some (.arr (entry.changedKeys.map .str))) :
    readEntry codec isDocument previous (.obj fields) = .ok entry := by
  simp only [readEntry, revision, values]
  refine bind_eq_ok.mpr ⟨(), require_eq_ok.mpr (decide_eq_true later), ?_⟩
  refine bind_eq_ok.mpr ⟨(), require_eq_ok.mpr named, ?_⟩
  refine bind_eq_ok.mpr ⟨(), checked.values, ?_⟩
  refine bind_eq_ok.mpr ⟨entry.actor, readString_of_get _ actor checked.actor, ?_⟩
  refine bind_eq_ok.mpr ⟨entry.at_, readString_of_get _ at_ checked.at_, ?_⟩
  exact bind_eq_ok.mpr ⟨entry.changedKeys, readChangedKeys_of_get checked changed, rfl⟩

theorem readEntry_toJson {previous : Int} {entry : Entry} (checked : entry.Checked codec)
    (later : previous < entry.revision) :
    readEntry codec false previous entry.toJson = .ok entry :=
  readEntry_of_get checked later rfl rfl rfl rfl rfl rfl

theorem readEntries_toJson {previous : Int} {entries : List Entry}
    (all : ∀ entry ∈ entries, entry.Checked codec)
    (ordered : entries.Pairwise fun first second => first.revision < second.revision)
    (later : ∀ entry ∈ entries, previous < entry.revision) :
    ∃ last, readEntries codec previous (entries.map Entry.toJson) = .ok (entries, last) ∧
      (last = previous ∨ ∃ entry ∈ entries, last = entry.revision) := by
  induction entries generalizing previous with
  | nil => exact ⟨previous, rfl, .inl rfl⟩
  | cons entry rest ih =>
    obtain ⟨first, ordered⟩ := List.pairwise_cons.mp ordered
    obtain ⟨last, read, final⟩ :=
      ih (fun other among => all other (List.mem_cons_of_mem entry among)) ordered first
    refine ⟨last, ?_, .inr ?_⟩
    · exact bind_eq_ok.mpr ⟨entry,
        readEntry_toJson (all entry List.mem_cons_self) (later entry List.mem_cons_self),
        bind_eq_ok.mpr ⟨(rest, last), read, rfl⟩⟩
    · rcases final with rfl | ⟨other, among, same⟩
      · exact ⟨entry, List.mem_cons_self, rfl⟩
      · exact ⟨other, List.mem_cons_of_mem entry among, same⟩

theorem readDocument_toJson {document : Document} (checked : document.Checked codec) :
    readDocument codec document.toJson = .ok document := by
  obtain ⟨ordered, _, newest⟩ := List.pairwise_append.mp checked.ordered
  obtain ⟨last, read, final⟩ := readEntries_toJson checked.entries ordered
    fun entry among => checked.positive entry (List.mem_append_left _ among)
  have later : last < document.current.revision := by
    rcases final with rfl | ⟨entry, among, rfl⟩
    · exact checked.positive _ (List.mem_append_right _ List.mem_cons_self)
    · exact newest entry among _ List.mem_cons_self
  have current : readEntry codec true last document.toJson = .ok document.current :=
    readEntry_of_get checked.current later rfl rfl rfl rfl rfl rfl
  refine bind_eq_ok.mpr ⟨(), rfl, ?_⟩
  refine bind_eq_ok.mpr ⟨(), require_eq_ok.mpr ?_, ?_⟩
  · exact decide_eq_true ((List.length_map _).trans_le checked.length)
  · exact bind_eq_ok.mpr ⟨(document.history, last), read,
      bind_eq_ok.mpr ⟨document.current, current, rfl⟩⟩

/-! ## The JSON of a checked document is finite -/

theorem Entry.Checked.finite {entry : Entry} (checked : entry.Checked codec) :
    finite entry.toJson = true := by
  have values := (checkValues_cases checked.values).2.2
  simp only [Entry.toJson, Settings.finite, finiteFields, values, finiteItems_map_str,
    Bool.and_self]

theorem Document.Checked.finite {document : Document} (checked : document.Checked codec) :
    finite document.toJson = true := by
  have entries : finiteItems (document.history.map Entry.toJson) = true := by
    have all := checked.entries
    revert all
    induction document.history with
    | nil => exact fun _ => rfl
    | cons entry rest ih =>
      intro all
      exact Bool.and_eq_true_iff.mpr ⟨(all entry List.mem_cons_self).finite,
        ih fun other among => all other (List.mem_cons_of_mem entry among)⟩
  have values := (checkValues_cases checked.current.values).2.2
  simp only [Document.toJson, Settings.finite, finiteFields, values, entries, finiteItems_map_str,
    Bool.and_self]

end

end BobbyBotique.Settings
