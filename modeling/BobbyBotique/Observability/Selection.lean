import BobbyBotique.Observability.Disclosure
import BobbyBotique.Observability.Incident

/-!
# What an incident export selects

The selected rows are the least closed set around the direct matches.  They are exported in
the order of their timestamps as texts, and the missing terminals are read from the exported
events.
-/

namespace BobbyBotique.Observability

section

variable (lib : IncidentLibrary) (criteria : IncidentCriteria) (rows : List LogRow)

def Direct (index : Nat) : Prop :=
  ∃ row, rows[index]? = some row ∧ matchesCriteria lib criteria row.event = true

/-- Two rows in the window have a token of one family and value. -/
def Shares (first second : Nat) : Prop :=
  ∃ token ∈ rowTokens lib criteria rows first, token ∈ rowTokens lib criteria rows second

/-- A row of the least set with the direct matches that is closed under shared tokens. -/
def Incident (index : Nat) : Prop :=
  ∀ nodes : Nat → Prop, (∀ first, Direct lib criteria rows first → nodes first) →
    (∀ first second, nodes first → Shares lib criteria rows first second → nodes second) →
    nodes index

end

def StartKind.Starts (kind : StartKind) (event : Fields) (identity : Text) : Prop :=
  textOf eventField event = some kind.start ∧ textOf kind.identity event = some identity

def StartKind.Finishes (kind : StartKind) (event : Fields) (identity : Text) : Prop :=
  textOf eventField event = some kind.finish ∧ textOf kind.identity event = some identity

/-- The identities that some events start and none of them finishes. -/
def Unfinished (events : List Fields) (identity : Text) : Prop :=
  ∃ kind ∈ startKinds, (∃ event ∈ events, kind.Starts event identity) ∧
    ∀ event ∈ events, ¬kind.Finishes event identity

/-- The export is the incident, each row once, in order, with its missing terminals. -/
structure Exports (lib : IncidentLibrary) (criteria : IncidentCriteria)
    (includeIdentifiers includeContent : Bool) (rows : List LogRow) (bundle : IncidentExport) :
    Prop where
  whole : ∃ indices : List Nat, indices.Nodup ∧
    (∀ index, index ∈ indices ↔ Incident lib criteria rows index) ∧
    (∀ index ∈ indices, index < rows.length) ∧
    bundle.selected.Perm ((indices.filterMap (rows[·]?)).map
      (exportedRow lib includeIdentifiers includeContent))
  ordered : bundle.selected.Pairwise (Ordered lib)
  missing : ∀ identity, identity ∈ bundle.missing ↔
    Unfinished (bundle.selected.map LogRow.event) identity

section

variable {lib : IncidentLibrary} {criteria : IncidentCriteria} {rows : List LogRow}

/-! ## The selected rows -/

theorem lt_of_token {index : Nat} {token : Text × Text}
    (has : token ∈ rowTokens lib criteria rows index) : index < rows.length := by
  unfold rowTokens at has
  split at has
  · next row found => exact (List.getElem?_eq_some_iff.mp found).1
  · exact absurd has List.not_mem_nil

theorem mem_tokenIndex {index : Nat} {token : Text × Text} :
    index ∈ tokenIndex lib criteria rows token ↔ token ∈ rowTokens lib criteria rows index := by
  unfold tokenIndex
  rw [List.mem_filter, List.mem_range, decide_eq_true_eq]
  exact ⟨And.right, fun has => ⟨lt_of_token has, has⟩⟩

theorem mem_directIndices {index : Nat} :
    index ∈ directIndices lib criteria rows ↔ Direct lib criteria rows index := by
  unfold directIndices Direct
  rw [List.mem_filter, List.mem_range, Option.any_eq_true]
  constructor
  · rintro ⟨_, row, found, direct⟩
    exact ⟨row, found, direct⟩
  · rintro ⟨row, found, direct⟩
    exact ⟨(List.getElem?_eq_some_iff.mp found).1, row, found, direct⟩

/-- What the worklist links is the incident. -/
theorem linked_iff (index : Nat) :
    Worklist.Linked (rowTokens lib criteria rows) (tokenIndex lib criteria rows)
      (directIndices lib criteria rows) index ↔ Incident lib criteria rows index := by
  have least := Worklist.linked_least (rowTokens lib criteria rows)
    (tokenIndex lib criteria rows) (directIndices lib criteria rows)
  constructor
  · intro linked nodes around closed
    refine least.2 nodes (fun first member => around first (mem_directIndices.mp member)) ?_
      index linked
    exact fun first token second inside has leads =>
      closed first second inside ⟨token, has, mem_tokenIndex.mp leads⟩
  · intro incident
    refine incident _ (fun first direct => .first (mem_directIndices.mpr direct)) ?_
    rintro first second linked ⟨token, has, shared⟩
    exact linked.share has (mem_tokenIndex.mpr shared)

theorem search_sound : Worklist.Sound (rowTokens lib criteria rows) (tokenIndex lib criteria rows)
    (directIndices lib criteria rows) (search lib criteria rows).visited
    (search lib criteria rows) :=
  (Worklist.start_sound (List.nodup_range.filter _)).rounds _

/-- The loop ends with no token pending. -/
theorem search_ends : (search lib criteria rows).pending = [] :=
  Worklist.rounds_end (fun _ _ member => List.mem_of_mem_filter member) _ (Nat.le_refl _)

theorem search_selects (index : Nat) :
    index ∈ (search lib criteria rows).selected ↔ Incident lib criteria rows index :=
  (search_sound.selects search_ends index).trans (linked_iff index)

theorem incident_lt {index : Nat} (incident : Incident lib criteria rows index) :
    index < rows.length := by
  refine incident (· < rows.length) ?_ ?_
  · rintro first ⟨row, found, _⟩
    exact (List.getElem?_eq_some_iff.mp found).1
  · rintro first second _ ⟨token, _, shared⟩
    exact lt_of_token shared

/-! ## The order -/

instance : Std.Total (Ordered lib) where
  total first second := by
    rcases lt_trichotomy (stamp lib first.event) (stamp lib second.event) with less | same | more
    · exact .inl (.inl less)
    · rcases Nat.le_total first.line second.line with up | down
      · exact .inl (.inr ⟨same, up⟩)
      · exact .inr (.inr ⟨same.symm, down⟩)
    · exact .inr (.inl more)

instance : IsTrans LogRow (Ordered lib) where
  trans first second third := by
    rintro (less | ⟨same, up⟩) (further | ⟨again, higher⟩)
    · exact .inl (lt_trans less further)
    · exact .inl (again ▸ less)
    · exact .inl (same ▸ further)
    · exact .inr ⟨same.trans again, Nat.le_trans up higher⟩

end

/-! ## The terminals -/

theorem mem_starts_readKinds {event : Fields} {name : Text} {kinds : List StartKind}
    {read : Integrity} {pair : Text × Text} :
    pair ∈ (kinds.foldl (readKind event name) read).starts ↔
      pair ∈ read.starts ∨ ∃ kind ∈ kinds, name = kind.start ∧
        textOf kind.identity event = some pair.1 ∧ pair.2 = kind.finish := by
  induction kinds generalizing read with
  | nil => simp
  | cons kind rest ih =>
    have one : pair ∈ (readKind event name read kind).starts ↔
        pair ∈ read.starts ∨ name = kind.start ∧
          textOf kind.identity event = some pair.1 ∧ pair.2 = kind.finish := by
      unfold readKind
      split
      · next unknown => simp [unknown]
      · next identity known =>
          split
          · next starts =>
              rw [List.mem_append, List.mem_singleton, known, Option.some.injEq]
              refine or_congr_right ⟨?_, fun ⟨_, same, finish⟩ => Prod.ext same.symm finish⟩
              rintro rfl
              exact ⟨starts, rfl, rfl⟩
          · next other =>
              split <;> exact ⟨.inl, fun cases => cases.resolve_right fun start => other start.1⟩
    rw [List.foldl_cons, ih, one, or_assoc]
    simp only [List.mem_cons, exists_eq_or_imp]

theorem mem_terminals_readKinds {event : Fields} {name : Text} {kinds : List StartKind}
    (apart : ∀ kind ∈ kinds, kind.start ≠ kind.finish) {read : Integrity} {pair : Text × Text} :
    pair ∈ (kinds.foldl (readKind event name) read).terminals ↔
      pair ∈ read.terminals ∨ ∃ kind ∈ kinds, name = kind.finish ∧
        textOf kind.identity event = some pair.1 ∧ pair.2 = kind.finish := by
  induction kinds generalizing read with
  | nil => simp
  | cons kind rest ih =>
    have differs := apart kind List.mem_cons_self
    have one : pair ∈ (readKind event name read kind).terminals ↔
        pair ∈ read.terminals ∨ name = kind.finish ∧
          textOf kind.identity event = some pair.1 ∧ pair.2 = kind.finish := by
      unfold readKind
      split
      · next unknown => simp [unknown]
      · next identity known =>
          split
          · next starts =>
              exact ⟨.inl, fun cases => cases.resolve_right fun finish =>
                differs (starts.symm.trans finish.1)⟩
          · split
            · next finishes =>
                rw [List.mem_cons, known, Option.some.injEq, or_comm]
                refine or_congr_right ⟨?_, fun ⟨_, same, finish⟩ => Prod.ext same.symm finish⟩
                rintro rfl
                exact ⟨finishes, rfl, rfl⟩
            · next other =>
                exact ⟨.inl, fun cases => cases.resolve_right fun finish => other finish.1⟩
    rw [List.foldl_cons, ih fun kind member => apart kind (List.mem_cons_of_mem _ member), one,
      or_assoc]
    simp only [List.mem_cons, exists_eq_or_imp]

theorem readId_keeps (event : Fields) (read : Integrity) :
    (readId event read).starts = read.starts ∧ (readId event read).terminals = read.terminals := by
  unfold readId
  split <;> exact ⟨rfl, rfl⟩

theorem startKinds_apart : ∀ kind ∈ startKinds, kind.start ≠ kind.finish := by decide +kernel

theorem startKinds_finish : ∀ kind ∈ startKinds, ∀ other ∈ startKinds,
    kind.finish = other.finish → kind = other := by decide +kernel

theorem mem_starts {events : List Fields} {read : Integrity} {pair : Text × Text} :
    pair ∈ (events.foldl readEvent read).starts ↔ pair ∈ read.starts ∨
      ∃ event ∈ events, ∃ kind ∈ startKinds, kind.Starts event pair.1 ∧ pair.2 = kind.finish := by
  induction events generalizing read with
  | nil => simp
  | cons event rest ih =>
    have one : pair ∈ (readEvent read event).starts ↔ pair ∈ read.starts ∨
        ∃ kind ∈ startKinds, kind.Starts event pair.1 ∧ pair.2 = kind.finish := by
      unfold readEvent StartKind.Starts
      split
      · next unnamed => simp [unnamed, (readId_keeps event read).1]
      · next name named =>
          rw [mem_starts_readKinds, (readId_keeps event read).1, named]
          simp only [Option.some.injEq, and_assoc]
    rw [List.foldl_cons, ih, one, or_assoc]
    simp only [List.mem_cons, exists_eq_or_imp]

theorem mem_terminals {events : List Fields} {read : Integrity} {pair : Text × Text} :
    pair ∈ (events.foldl readEvent read).terminals ↔ pair ∈ read.terminals ∨
      ∃ event ∈ events, ∃ kind ∈ startKinds, kind.Finishes event pair.1 ∧
        pair.2 = kind.finish := by
  induction events generalizing read with
  | nil => simp
  | cons event rest ih =>
    have one : pair ∈ (readEvent read event).terminals ↔ pair ∈ read.terminals ∨
        ∃ kind ∈ startKinds, kind.Finishes event pair.1 ∧ pair.2 = kind.finish := by
      unfold readEvent StartKind.Finishes
      split
      · next unnamed => simp [unnamed, (readId_keeps event read).2]
      · next name named =>
          rw [mem_terminals_readKinds startKinds_apart, (readId_keeps event read).2, named]
          simp only [Option.some.injEq, and_assoc]
    rw [List.foldl_cons, ih, one, or_assoc]
    simp only [List.mem_cons, exists_eq_or_imp]

/-- The missing terminals are the identities that are started and not finished. -/
theorem mem_missingTerminals {events : List Fields} {identity : Text} :
    identity ∈ missingTerminals events ↔ Unfinished events identity := by
  unfold missingTerminals readEvents Unfinished
  simp only [List.mem_insertionSort, List.mem_dedup, List.mem_map, List.mem_filter,
    decide_eq_true_eq, mem_starts, mem_terminals, List.not_mem_nil, false_or]
  constructor
  · rintro ⟨⟨_, finish⟩, ⟨⟨event, among, kind, listed, starts, rfl⟩, open'⟩, rfl⟩
    exact ⟨kind, listed, ⟨event, among, starts⟩, fun other member finishes =>
      open' ⟨other, member, kind, listed, finishes, rfl⟩⟩
  · rintro ⟨kind, listed, ⟨event, among, starts⟩, unfinished⟩
    refine ⟨(identity, kind.finish), ⟨⟨event, among, kind, listed, starts, rfl⟩, ?_⟩, rfl⟩
    rintro ⟨other, member, same, known, finishes, finish⟩
    cases startKinds_finish kind listed same known finish
    exact unfinished other member finishes

/-! ## The export -/

def digitOf (c : Char) : Int := c.toNat - 48

def clock (h h' m m' s s' : Char) : Int :=
  ((digitOf h * 10 + digitOf h') * 60 + digitOf m * 10 + digitOf m') * 60 + digitOf s * 10 +
    digitOf s'

/-- The times of one day. -/
def dayTime (text : Text) : Option Int :=
  if text.take 10 = "2026-09-10".toList then
    match text.drop 10 with
    | ['T', h, h', ':', m, m', ':', s, s', 'Z'] => some (1788998400 + clock h h' m m' s s')
    | ['T', h, h', ':', m, m', ':', s, s', '+', z, z', ':', y, y'] =>
      some (1788998400 + clock h h' m m' s s' - clock z z' y y' '0' '0')
    | _ => none
  else none

def dayLibrary : IncidentLibrary where
  language := asciiLanguage
  known := []
  parseTime := dayTime
  floatInt _ := none
  pseudonym kind _ := kind
  str
    | .text text => text
    | _ => []
  str_text _ := rfl

def requestR : IncidentCriteria := ⟨some ['r'], none, none, none, none⟩

def logged (time event : String) (fields : List (String × String)) : Fields :=
  ("schema_version".toList, .scalar (.int 1)) ::
    (("timestamp", time) :: ("event", event) :: ("request_id", "r") :: fields).map
      fun field => (field.1.toList, .text field.2.toList)

/-- Two zones on one day. -/
def twoZones : List LogRow :=
  [⟨1, logged "2026-09-10T01:00:00+01:00" "job.started" []⟩,
    ⟨2, logged "2026-09-10T00:30:00Z" "job.started" []⟩]

/-- An attempt that ends; its start also names the end of a key. -/
def endedAttempt : List LogRow :=
  [⟨1, logged "2026-09-10T00:00:00Z" "provider.attempt_started"
      [("attempt_id", "a-9876"), ("key_suffix", "9876")]⟩,
    ⟨2, logged "2026-09-10T00:00:01Z" "provider.attempt_finished" [("attempt_id", "a-9876")]⟩]

end BobbyBotique.Observability
