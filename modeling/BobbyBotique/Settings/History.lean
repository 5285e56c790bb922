import BobbyBotique.Settings.Format

/-!
# One history

The row holds the text of the last committed document, which is read back as
that document.  A change that commits was prepared from the text the row still
has, so from the latest document, whatever happened in between.
-/

namespace BobbyBotique.Settings

open Run

/-! ## What a change writes -/

section

variable {codec : Codec}

theorem orInvalid_eq_ok {α : Type} {outcome : Except String α} {value : α} :
    orInvalid outcome = .ok value ↔ outcome = .ok value := by
  cases outcome with
  | error message =>
    constructor
    · intro absurd
      cases absurd
    · intro absurd
      cases absurd
  | ok known =>
    constructor
    · intro same
      injection same with same
      exact congrArg Except.ok same
    · intro same
      injection same with same
      exact congrArg Except.ok same

theorem prepare_cases {change : Change} {operation : Operation} {raw : Option String}
    {now : Timestamp} {updated : Document} {encoded : String}
    (prepared : prepare codec change operation raw now = .ok (updated, encoded)) :
    ∃ document, decode codec raw = .ok document ∧
      document.current.revision = change.expectedRevision ∧
      apply document operation = .ok updated.current.values ∧
      checkValues codec updated.current.values = .ok () ∧
      updated = ⟨⟨change.expectedRevision + 1, updated.current.values, change.actor,
        changedKeys updated.current.values document.current.values, now.1⟩,
        lastEntries (document.history ++ [document.current])⟩ ∧
      codec.dumps updated.toJson = some encoded ∧ encoded.utf8ByteSize ≤ documentLimit := by
  obtain ⟨document, read, prepared⟩ := bind_eq_ok.mp prepared
  dsimp only at prepared
  split at prepared
  · cases prepared
  next same =>
  obtain ⟨values, applied, prepared⟩ := bind_eq_ok.mp prepared
  obtain ⟨_, checked, prepared⟩ := bind_eq_ok.mp prepared
  obtain ⟨_, _, prepared⟩ := bind_eq_ok.mp prepared
  split at prepared
  · cases prepared
  next text printed =>
  split at prepared
  · next short =>
      cases prepared
      exact ⟨document, orInvalid_eq_ok.mp read, not_not.mp same, orInvalid_eq_ok.mp applied,
        orInvalid_eq_ok.mp checked, rfl, printed, short⟩
  · cases prepared

/-- The changed keys are among the names on the two sides. -/
theorem changedKeys_checked {values previous : Values} (first : values.length ≤ 512)
    (second : previous.length ≤ 512) (left : ∀ field ∈ values, keyAccepted field.1 = true)
    (right : ∀ field ∈ previous, keyAccepted field.1 = true) :
    (∀ key ∈ changedKeys values previous, keyAccepted key = true) ∧
      (changedKeys values previous).length ≤ 1024 ∧ (changedKeys values previous).Nodup := by
  unfold changedKeys
  refine ⟨?_, ?_, ?_⟩
  · intro key among
    have named := List.mem_dedup.mp (List.mem_of_mem_filter (List.mem_mergeSort.mp among))
    obtain ⟨field, listed, rfl⟩ := List.mem_map.mp named
    rcases List.mem_append.mp listed with listed | listed
    · exact left field listed
    · exact right field listed
  · calc _ = _ := List.length_mergeSort _
      _ ≤ _ := List.length_filter_le _ _
      _ ≤ _ := (List.dedup_sublist _).length_le
      _ = values.length + previous.length := by rw [List.length_map, List.length_append]
      _ ≤ 1024 := by omega
  · exact (List.mergeSort_perm _ _).nodup_iff.mpr ((List.nodup_dedup _).filter _)

theorem lastEntries_sublist (history : List Entry) : (lastEntries history).Sublist history :=
  List.drop_sublist _ history

theorem lastEntries_length (history : List Entry) :
    (lastEntries history).length ≤ historyLimit := by
  unfold lastEntries
  rw [List.length_drop]
  omega

theorem baseline_checked (faithful : Faithful codec) : baseline.Checked codec := by
  have values : checkValues codec [] = .ok () := by
    refine bind_eq_ok.mpr ⟨(), rfl, bind_eq_ok.mpr ⟨(), rfl, ?_⟩⟩
    unfold checkSize
    rw [faithful.empty]
    exact require_eq_ok.mpr (by decide)
  refine ⟨fun _ absurd => (List.not_mem_nil absurd).elim, ?_, Nat.zero_le _,
    List.pairwise_singleton _ _, ?_⟩
  · exact ⟨values, Nat.zero_le _, Nat.zero_le _, fun _ absurd => (List.not_mem_nil absurd).elim,
      Nat.zero_le _, List.nodup_nil⟩
  · intro entry among
    cases List.mem_singleton.mp among
    decide

theorem decode_checked (faithful : Faithful codec) {raw : Option String} {document : Document}
    (read : decode codec raw = .ok document) : document.Checked codec := by
  cases raw with
  | none =>
    cases read
    exact baseline_checked faithful
  | some text =>
    obtain ⟨_, _, read⟩ := bind_eq_ok.mp read
    split at read
    · cases read
    · exact readDocument_cases read

/-- The next document is checked where the previous one is. -/
theorem prepare_checked (faithful : Faithful codec) {change : Change} {operation : Operation}
    {raw : Option String} {now : Timestamp} {updated : Document} {encoded : String}
    (actor : change.actor.length ≤ 128)
    (prepared : prepare codec change operation raw now = .ok (updated, encoded)) :
    updated.Checked codec := by
  obtain ⟨document, read, same, _, values, shape, _⟩ := prepare_cases prepared
  have checked := decode_checked faithful read
  obtain ⟨few, keys, _⟩ := checkValues_cases values
  obtain ⟨fewBefore, keysBefore, _⟩ := checkValues_cases checked.current.values
  obtain ⟨accepted, length, nodup⟩ := changedKeys_checked few fewBefore keys keysBefore
  have kept := lastEntries_sublist (document.history ++ [document.current])
  have upTo : ∀ entry ∈ document.history ++ [document.current],
      entry.revision ≤ change.expectedRevision := by
    intro entry among
    rcases List.mem_append.mp among with among | among
    · have := (List.pairwise_append.mp checked.ordered).2.2 entry among _ List.mem_cons_self
      omega
    · cases List.mem_singleton.mp among
      exact same.le
  rw [shape]
  refine ⟨?_, ⟨values, actor, now.2, accepted, length, nodup⟩, lastEntries_length _, ?_, ?_⟩
  · intro entry among
    rcases List.mem_append.mp (kept.subset among) with among | among
    · exact checked.entries entry among
    · cases List.mem_singleton.mp among
      exact checked.current
  · refine List.pairwise_append.mpr ⟨checked.ordered.sublist kept, List.pairwise_singleton _ _, ?_⟩
    intro entry among other equal
    cases List.mem_singleton.mp equal
    exact Int.lt_add_one_of_le (upTo entry (kept.subset among))
  · intro entry among
    rcases List.mem_append.mp among with among | among
    · exact checked.positive entry (kept.subset among)
    · cases List.mem_singleton.mp among
      have := checked.positive document.current (List.mem_append_right _ List.mem_cons_self)
      dsimp only
      omega

/-- The text that a change writes is read back as the document it wrote. -/
theorem prepare_decodes (faithful : Faithful codec) {change : Change} {operation : Operation}
    {raw : Option String} {now : Timestamp} {updated : Document} {encoded : String}
    (actor : change.actor.length ≤ 128)
    (prepared : prepare codec change operation raw now = .ok (updated, encoded)) :
    decode codec (some encoded) = .ok updated := by
  have checked := prepare_checked faithful actor prepared
  obtain ⟨_, _, _, _, _, _, printed, short⟩ := prepare_cases prepared
  refine bind_eq_ok.mpr ⟨(), require_eq_ok.mpr (decide_eq_true short), ?_⟩
  rw [faithful.back updated.toJson encoded checked.finite printed]
  exact readDocument_toJson checked

/-- A read of the operation's own text leaves it as it is. -/
theorem normalize_eq (faithful : Faithful codec) {asked operation : Operation}
    (normal : normalize codec asked = .ok operation) : operation = asked := by
  cases asked with
  | set key value =>
    obtain ⟨_, _, normal⟩ := bind_eq_ok.mp normal
    obtain ⟨_, checked, normal⟩ := bind_eq_ok.mp normal
    obtain ⟨read, back, normal⟩ := bind_eq_ok.mp normal
    cases normal
    have known := (Bool.and_eq_true_iff.mp (checkValues_cases checked).2.2).1
    rw [roundTrip_eq faithful known back]
  | reset key =>
    obtain ⟨_, _, normal⟩ := bind_eq_ok.mp normal
    cases normal
    rfl
  | update updates removals =>
    obtain ⟨_, checked, normal⟩ := bind_eq_ok.mp normal
    obtain ⟨read, back, normal⟩ := bind_eq_ok.mp normal
    have known : finite (.obj updates) = true := (checkValues_cases checked).2.2
    cases roundTrip_eq faithful known back
    obtain ⟨_, _, normal⟩ := bind_eq_ok.mp normal
    cases normal
    rfl
  | restore revision =>
    obtain ⟨_, _, normal⟩ := bind_eq_ok.mp normal
    cases normal
    rfl

theorem admitted_cases (faithful : Faithful codec) {change : Change} {operation : Operation}
    (accepted : admitted codec change = .ok operation) :
    change.actor.length ≤ 128 ∧ operation = change.operation := by
  obtain ⟨_, _, accepted⟩ := bind_eq_ok.mp accepted
  obtain ⟨_, actor, accepted⟩ := bind_eq_ok.mp accepted
  have short := (Bool.and_eq_true_iff.mp (Bool.and_eq_true_iff.mp (require_eq_ok.mp actor)).1).2
  exact ⟨of_decide_eq_true short, normalize_eq faithful accepted⟩

end

/-! ## The chain of documents -/

section

variable {codec : Codec}

/-- The document at the end of a log that starts after `previous`. -/
def lastOf (previous : Document) (log : List (Operation × Document)) : Document :=
  (log.getLast?.map Prod.snd).getD previous

theorem lastOf_cons (previous : Document) (entry : Operation × Document)
    (rest : List (Operation × Document)) :
    lastOf previous (entry :: rest) = lastOf entry.2 rest := by
  unfold lastOf
  rw [List.getLast?_cons]
  cases rest.getLast? with
  | none | some => rfl

theorem Chain.append {previous : Document} {log : List (Operation × Document)}
    {operation : Operation} {document : Document} {text : String} (chain : Chain codec previous log)
    (follows : Follows (lastOf previous log) operation document)
    (printed : codec.dumps document.toJson = some text)
    (read : decode codec (some text) = .ok document) :
    Chain codec previous (log ++ [(operation, document)]) := by
  induction log generalizing previous with
  | nil => exact ⟨follows, ⟨text, printed, read⟩, trivial⟩
  | cons entry rest ih =>
    obtain ⟨first, again, chain⟩ := chain
    rw [lastOf_cons] at follows
    exact ⟨first, again, ih chain follows⟩

/-- Along a chain the revisions count up by one. -/
theorem Chain.revisions {previous : Document} {log : List (Operation × Document)}
    (chain : Chain codec previous log) :
    (log.map fun entry => entry.2.current.revision) =
      (List.range log.length).map fun i : Nat => previous.current.revision + (i + 1) := by
  induction log generalizing previous with
  | nil => rfl
  | cons entry rest ih =>
    obtain ⟨first, _, chain⟩ := chain
    rw [List.map_cons, List.length_cons, List.range_succ_eq_map, List.map_cons, List.map_map,
      ih chain, first.revision]
    refine congrArg₂ List.cons (by simp) (List.map_congr_left fun i _ => ?_)
    simp only [Function.comp_apply, Nat.succ_eq_add_one, Int.natCast_add, Int.natCast_one]
    omega

end

/-! ## Every interleaving -/

namespace Store

section

variable (codec : Codec)

/-- The row is the text of the latest document of a chain, and every change under
way passed the first checks. -/
structure Sound (state : Store) : Prop where
  current : decode codec state.row = .ok state.latest
  chain : Chain codec baseline state.log
  pending : ∀ name pending, state.pending.get? name = some pending →
    pending.change.actor.length ≤ 128 ∧ pending.operation = pending.change.operation

/-- What the commit of a validated change does to the row and the log. -/
structure Commits (state next : Store) (label : StoreLabel) : Prop where
  commits : ∃ name now pending updated encoded,
    label = .commit name now ∧ state.pending.get? name = some pending ∧
      prepare codec pending.change pending.operation pending.raw now = .ok (updated, encoded) ∧
      state.row = pending.raw ∧ pending.operation = pending.change.operation ∧
      pending.change.expectedRevision = state.latest.current.revision ∧
      next.row = some encoded ∧ next.log = state.log ++ [(pending.operation, updated)]

variable {codec}

theorem initial_sound : initial.Sound codec :=
  ⟨rfl, trivial, fun _ _ absurd => nomatch absurd⟩

/-- A change under way was there before or has just been read. -/
theorem step_pending (faithful : Faithful codec) {state : Store} (sound : state.Sound codec)
    (label : StoreLabel) {name : Nat} {pending : Pending}
    (found : (state.step codec label).pending.get? name = some pending) :
    pending.change.actor.length ≤ 128 ∧ pending.operation = pending.change.operation := by
  have dropped : ∀ other, (state.pending.del other).get? name = some pending →
      pending.change.actor.length ≤ 128 ∧ pending.operation = pending.change.operation :=
    fun other found => sound.pending name pending (Dict.get?_del_eq_some.mp found).2
  cases label with
  | read other change =>
    unfold step at found
    dsimp only at found
    split at found
    · exact sound.pending name pending found
    · next operation accepted =>
        by_cases same : name = other
        · subst same
          simp only [Dict.get?_set_self, Option.some.injEq] at found
          subst found
          exact admitted_cases faithful accepted
        · simp only [Dict.get?_set_ne _ _ same] at found
          exact sound.pending name pending found
  | commit other now =>
    unfold step at found
    dsimp only at found
    split at found
    · exact sound.pending name pending found
    · split at found
      · exact dropped other found
      · split at found
        · exact dropped other found
        · exact dropped other found
  | fail other => exact dropped other found

/-- A step leaves the row and the log as they are or commits a validated change. -/
theorem step_cases {state : Store} (sound : state.Sound codec) (label : StoreLabel) :
    ((state.step codec label).row = state.row ∧ (state.step codec label).log = state.log) ∨
      Commits codec state (state.step codec label) label := by
  cases label with
  | read name change =>
    left
    unfold step
    dsimp only
    split
    · exact ⟨rfl, rfl⟩
    · exact ⟨rfl, rfl⟩
  | fail name => exact .inl ⟨rfl, rfl⟩
  | commit name now =>
    unfold step
    dsimp only
    split
    · exact .inl ⟨rfl, rfl⟩
    next pending found =>
    split
    · exact .inl ⟨rfl, rfl⟩
    next updated encoded prepared =>
    split
    · next same =>
        obtain ⟨document, read, revision, _⟩ := prepare_cases prepared
        rw [← same, sound.current] at read
        cases read
        exact .inr ⟨name, now, pending, updated, encoded, rfl, found, prepared, same,
          (sound.pending name pending found).2, revision.symm, rfl, rfl⟩
    · exact .inl ⟨rfl, rfl⟩

theorem step_sound (faithful : Faithful codec) (state : Store) (label : StoreLabel)
    (sound : state.Sound codec) : (state.step codec label).Sound codec := by
  have pending := fun name pending =>
    @step_pending codec faithful state sound label name pending
  rcases step_cases sound label with ⟨row, log⟩ | ⟨name, now, change, updated, encoded, _, found,
    prepared, same, _, revision, row, log⟩
  · refine ⟨?_, log ▸ sound.chain, pending⟩
    rw [row, latest, log]
    exact sound.current
  · obtain ⟨document, read, before, applied, _, shape, printed, _⟩ := prepare_cases prepared
    rw [← same, sound.current] at read
    cases read
    have back := prepare_decodes faithful (sound.pending name change found).1 prepared
    have follows : Follows state.latest change.operation updated := by
      rw [shape]
      exact ⟨congrArg (· + 1) revision, applied, rfl⟩
    refine ⟨?_, ?_, pending⟩
    · rw [row, latest, log, List.getLast?_append]
      exact back
    · rw [log]
      exact sound.chain.append follows printed back

theorem run_sound (faithful : Faithful codec) (labels : List StoreLabel) :
    (run (step codec) initial labels).Sound codec :=
  run_keeps (Sound codec) (step_sound faithful) initial_sound labels

theorem log_prefix (faithful : Faithful codec) {state : Store} (sound : state.Sound codec)
    (labels : List StoreLabel) : state.log <+: (run (step codec) state labels).log := by
  induction labels generalizing state with
  | nil => exact List.prefix_refl _
  | cons label rest ih =>
    refine List.IsPrefix.trans ?_ (ih (step_sound faithful state label sound))
    rcases step_cases sound label with ⟨_, log⟩ | ⟨_, _, _, _, _, _, _, _, _, _, _, _, log⟩
    · rw [log]
    · rw [log]
      exact List.prefix_append _ _

end

end Store

/-- In every interleaving of changes the committed documents form one chain from
the empty settings with the revisions 1, 2, 3 and so on.  The row is the text of
its last document, no later step takes a document out, and only the commit of a
change that passed its validation touches the row. -/
theorem settings_form_one_history (codec : Codec) (faithful : Faithful codec)
    (labels more : List StoreLabel) (label : StoreLabel) :
    let state := run (Store.step codec) Store.initial labels
    let next := state.step codec label
    Chain codec baseline state.log ∧
      (state.log.map fun entry => entry.2.current.revision) =
        (List.range state.log.length).map (fun i : Nat => (i : Int) + 1) ∧
      decode codec state.row = .ok state.latest ∧
      state.log <+: (run (Store.step codec) state more).log ∧
      ((next.row = state.row ∧ next.log = state.log) ∨ Store.Commits codec state next label) := by
  intro state next
  have sound : state.Sound codec := Store.run_sound faithful labels
  refine ⟨sound.chain, ?_, sound.current, Store.log_prefix faithful sound more,
    Store.step_cases sound label⟩
  rw [sound.chain.revisions]
  exact List.map_congr_left fun i _ => zero_add _

def sampleText : String :=
  "\x7b\"version\":1,\"revision\":1,\"values\":\x7b\"audio:mode\":1\x7d,\"history\":[" ++
    "\x7b\"revision\":0,\"values\":\x7b\x7d,\"actor\":\"\",\"at\":\"\",\"changed_keys\":[]\x7d]," ++
    "\"actor\":\"admin\",\"at\":\"2026-01-01T00:00:00+00:00\",\"changed_keys\":[\"audio:mode\"]\x7d"

def sampleJson : Json :=
  .obj [("version", .int 1), ("revision", .int 1), ("values", .obj [("audio:mode", .int 1)]),
    ("history", .arr [.obj [("revision", .int 0), ("values", .obj []), ("actor", .str ""),
      ("at", .str ""), ("changed_keys", .arr [])]]),
    ("actor", .str "admin"), ("at", .str "2026-01-01T00:00:00+00:00"),
    ("changed_keys", .arr [.str "audio:mode"])]

/-- A codec for the values of one change. -/
def sampleCodec : Codec where
  dumps
    | .obj [] => some "\x7b\x7d"
    | .int 1 => some "1"
    | .obj [("audio:mode", .int 1)] => some "\x7b\"audio:mode\":1\x7d"
    | .obj [("version", .int 1), ("revision", .int 1), ("values", .obj [("audio:mode", .int 1)]),
        ("history", .arr [.obj [("revision", .int 0), ("values", .obj []), ("actor", .str ""),
          ("at", .str ""), ("changed_keys", .arr [])]]),
        ("actor", .str "admin"), ("at", .str "2026-01-01T00:00:00+00:00"),
        ("changed_keys", .arr [.str "audio:mode"])] => some sampleText
    | _ => none
  loads text :=
    if text = sampleText then some sampleJson
    else if text = "\x7b\x7d" then some (.obj [])
    else if text = "1" then some (.int 1)
    else if text = "\x7b\"audio:mode\":1\x7d" then some (.obj [("audio:mode", .int 1)])
    else none

set_option maxRecDepth 4000 in
theorem sampleCodec_faithful : Faithful sampleCodec := by
  have braces : "\x7b\x7d" ≠ sampleText := by decide +kernel
  have one : "1" ≠ sampleText := by decide +kernel
  have values : "\x7b\"audio:mode\":1\x7d" ≠ sampleText := by decide +kernel
  refine ⟨fun value text _ printed => ?_, rfl⟩
  simp only [sampleCodec] at printed ⊢
  split at printed
  · cases printed
    rw [if_neg braces, if_pos rfl]
  · cases printed
    rw [if_neg one, if_neg (by decide), if_pos rfl]
  · cases printed
    rw [if_neg values, if_neg (by decide), if_neg (by decide), if_pos rfl]
  · injection printed with same
    rw [if_pos same.symm]
    rfl
  · cases printed

def sampleChange : Change :=
  ⟨.set "audio:mode" (.int 1), 0, "admin", fun _ => true⟩

def sampleRun : List StoreLabel :=
  [.read 0 sampleChange, .commit 0 ⟨"2026-01-01T00:00:00+00:00", by decide⟩]

set_option maxRecDepth 4000 in
theorem settings_form_one_history_sample :
    let state := run (Store.step sampleCodec) Store.initial sampleRun
    state.row = some sampleText ∧ Chain sampleCodec baseline state.log :=
  ⟨by decide +kernel,
    (settings_form_one_history sampleCodec sampleCodec_faithful sampleRun [] (.fail 0)).1⟩

end BobbyBotique.Settings
