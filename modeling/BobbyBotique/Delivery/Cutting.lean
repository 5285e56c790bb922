import BobbyBotique.Delivery.Coordinator

/-!
# The answer and its chunks

Blanks before an answer change nothing that is made of it, and a reading is determined
by the joined text up to such blanks.
-/

namespace BobbyBotique.Delivery.Stream

open Router (ErrorCode)

/-! ## Blanks before a text -/

section

variable {c : Char} {first second text : Text}

theorem lstrip_cons (blank : isSpace c = true) : lstrip (c :: text) = lstrip text := by
  rw [lstrip, List.dropWhile_cons, if_pos blank, lstrip]

theorem lstrip_of_visible (visible : isSpace c ≠ true) : lstrip (c :: text) = c :: text := by
  rw [lstrip, List.dropWhile_cons, if_neg visible]

theorem strip_cons (blank : isSpace c = true) : strip (c :: text) = strip text := by
  rw [strip, lstrip_cons blank, strip]

theorem lstrip_lstrip : lstrip (lstrip text) = lstrip text := by
  induction text with
  | nil => rfl
  | cons c text ih =>
    by_cases blank : isSpace c = true
    · rw [lstrip_cons blank, ih]
    · rw [lstrip_of_visible blank, lstrip_of_visible blank]

theorem lstrip_append : lstrip (first ++ second) = lstrip (lstrip first ++ second) := by
  induction first with
  | nil => rfl
  | cons c first ih =>
    by_cases blank : isSpace c = true
    · rw [List.cons_append, lstrip_cons blank, lstrip_cons blank, ih]
    · rw [lstrip_of_visible blank]

theorem lstrip_append_of_ne (visible : lstrip first ≠ []) :
    lstrip (first ++ second) = lstrip first ++ second := by
  rw [lstrip, List.dropWhile_append, if_neg (by simpa [lstrip] using visible), lstrip]

/-- What skips a blank at the front depends on a text only up to such blanks. -/
theorem eq_of_lstrip_eq {B : Type} {made : Text → B}
    (skips : ∀ c text, isSpace c = true → made (c :: text) = made text)
    (same : lstrip first = lstrip second) : made first = made second := by
  have stripped : ∀ text, made text = made (lstrip text) := by
    intro text
    induction text with
    | nil => rfl
    | cons c text ih =>
      by_cases blank : isSpace c = true
      · rw [skips c text blank, lstrip_cons blank, ih]
      · rw [lstrip_of_visible blank]
  rw [stripped first, stripped second, same]

theorem ne_of_blank {letter : Char} (blank : isSpace c = true)
    (visible : isSpace letter = false) : c ≠ letter := by
  rintro rfl
  exact Bool.false_ne_true (visible.symm.trans blank)

/-! ## The traces -/

theorem splitlines_cons (apart : ¬(c = '\r' ∧ text.head? = some '\n')) :
    splitlines (c :: text) =
      if isLineEnd c then [c] :: splitlines text else consLine c (splitlines text) := by
  rw [splitlines]
  rintro rest rfl rfl
  exact apart ⟨rfl, rfl⟩

theorem keepLines_false (line : Text) (rest : List Text) :
    keepLines false (line :: rest) =
      if strip line = toolCode then keepLines true rest else line ++ keepLines false rest := by
  simp [keepLines]

/-- Of the lines behind a blank the same are kept. -/
theorem keepLines_splitlines_cons (blank : isSpace c = true) :
    keepLines false (splitlines (c :: text)) = c :: keepLines false (splitlines text) ∨
      keepLines false (splitlines (c :: text)) = keepLines false (splitlines text) := by
  have alone : strip [c] ≠ toolCode := by
    rw [strip_cons blank]
    decide
  by_cases joined : c = '\r' ∧ text.head? = some '\n'
  · obtain ⟨rfl, head⟩ := joined
    obtain ⟨rest, rfl⟩ : ∃ rest, text = '\n' :: rest := by
      cases text with
      | nil => simp at head
      | cons d rest => exact ⟨rest, by simpa using head⟩
    left
    have inner : splitlines ('\n' :: rest) = ['\n'] :: splitlines rest := by
      rw [splitlines_cons (by simp), if_pos (by decide)]
    rw [splitlines, inner, keepLines_false, keepLines_false, if_neg (by decide),
      if_neg (by decide)]
    rfl
  · rw [splitlines_cons joined]
    split
    · left
      rw [keepLines_false, if_neg alone]
      rfl
    · cases lines : splitlines text with
      | nil =>
        left
        rw [consLine, keepLines_false, if_neg alone]
        rfl
      | cons line rest =>
        rw [consLine, keepLines_false, keepLines_false, strip_cons blank]
        split
        · exact .inr rfl
        · exact .inl rfl

theorem behind_cons {letter : Char} {front : Text} (other : c ≠ letter) :
    behind (letter :: front) (c :: text) = none := by
  rw [behind, List.isPrefixOf, beq_eq_false_iff_ne.mpr other.symm]
  rfl

theorem inlinePattern_cons (blank : isSpace c = true) (before : Option Char) :
    inlinePattern before (c :: text) = none := by
  have unmatched : behind toolCode (c :: text) = none :=
    behind_cons (ne_of_blank blank (by decide))
  rw [inlinePattern, behindInline, unmatched]
  rfl

/-- The letter before a text does not matter to a trace. -/
theorem resub_inlinePattern (skip : Nat) (before : Option Char) :
    resub inlinePattern skip before text = resub inlinePattern skip none text := by
  cases text with
  | nil | cons => cases skip <;> rfl

theorem resub_cons (blank : isSpace c = true) :
    resub inlinePattern 0 none (c :: text) = c :: resub inlinePattern 0 none text := by
  rw [resub, inlinePattern_cons blank]
  exact congrArg _ (resub_inlinePattern 0 (some c))

theorem toolCode_isInfix_cons (blank : isSpace c = true) :
    toolCode <:+: c :: text ↔ toolCode <:+: text := by
  rw [List.infix_cons_iff]
  refine or_iff_right fun front => ?_
  exact ne_of_blank blank (by decide) (List.cons_prefix_cons.mp front).1.symm

theorem stripHallucinatedToolTrace_cons (blank : isSpace c = true) :
    stripHallucinatedToolTrace (c :: text) = c :: stripHallucinatedToolTrace text ∨
      stripHallucinatedToolTrace (c :: text) = stripHallucinatedToolTrace text := by
  rw [stripHallucinatedToolTrace, stripHallucinatedToolTrace]
  by_cases traced : toolCode <:+: text
  · rw [if_pos ((toolCode_isInfix_cons blank).mpr traced), if_pos traced]
    rcases @keepLines_splitlines_cons c text blank with kept | kept
    · exact .inl (by rw [kept, resub_cons blank])
    · exact .inr (by rw [kept])
  · rw [if_neg (mt (toolCode_isInfix_cons blank).mp traced), if_neg traced]
    exact .inl rfl

/-! ## The tags -/

theorem dropVoiceTag_cons (blank : isSpace c = true) :
    dropVoiceTag (c :: text) = c :: dropVoiceTag text := by
  have shorter : (lstrip text).length ≤ text.length := List.length_dropWhile_le isSpace text
  rw [dropVoiceTag, dropVoiceTag, lstrip_cons blank]
  split
  · rw [List.length_cons, Nat.succ_sub shorter, List.take_succ_cons, List.cons_append]
  · rfl

theorem searchTag_cons {A : Type} {matchAt : Text → Option (A × Text)}
    (unmatched : matchAt (c :: text) = none) :
    searchTag matchAt (c :: text) =
      (searchTag matchAt text).map fun result => (c :: result.1, result.2) := by
  rw [searchTag, unmatched]

theorem suggestionsAt_cons (blank : isSpace c = true) : suggestionsAt (c :: text) = none := by
  have other : c ≠ '[' := ne_of_blank blank (by decide)
  rw [suggestionsAt]
  rintro letter rest same
  exact absurd (List.cons.inj same).1 other

theorem intentAt_cons (blank : isSpace c = true) : intentAt (c :: text) = none := by
  have other : c ≠ '[' := ne_of_blank blank (by decide)
  rw [intentAt]
  rintro rest same
  exact absurd (List.cons.inj same).1 other

variable {digest : Text → Text}

theorem extractSuggestions_cons (blank : isSpace c = true) :
    extractSuggestions digest (c :: text) =
      (c :: (extractSuggestions digest text).1, (extractSuggestions digest text).2) := by
  rw [extractSuggestions, extractSuggestions, searchTag_cons (suggestionsAt_cons blank)]
  cases searchTag suggestionsAt text <;> rfl

theorem extractIntent_cons (blank : isSpace c = true) :
    extractIntent (c :: text) = (c :: (extractIntent text).1, (extractIntent text).2) := by
  rw [extractIntent, extractIntent, searchTag_cons (intentAt_cons blank)]
  cases searchTag intentAt text <;> rfl

theorem strip_replicate_append (ends : Nat) :
    strip (List.replicate ends '\n' ++ text) = strip text := by
  induction ends with
  | zero => rfl
  | succ ends ih => rw [List.replicate_succ, List.cons_append, strip_cons (by decide), ih]

/-- The line ends before a text are not seen once it is stripped. -/
theorem strip_squeezeLines (ends : Nat) :
    strip (squeezeLines ends text) = strip (squeezeLines 0 text) := by
  induction text generalizing ends with
  | nil =>
    have gone : ∀ ends, strip (squeezeLines ends []) = [] := by
      intro ends
      rw [squeezeLines, ← List.append_nil (List.replicate _ _), strip_replicate_append]
      rfl
    rw [gone, gone]
  | cons c text ih =>
    rw [squeezeLines, squeezeLines]
    split
    · rw [ih, ih (0 + 1)]
    · rw [strip_replicate_append, strip_replicate_append]

theorem strip_squeezeLines_cons (blank : isSpace c = true) :
    strip (squeezeLines 0 (c :: text)) = strip (squeezeLines 0 text) := by
  rw [squeezeLines]
  split
  · exact strip_squeezeLines (0 + 1)
  · rw [strip_replicate_append, strip_cons blank]

theorem parseResponseTags_cons (blank : isSpace c = true) :
    parseResponseTags digest (c :: text) = parseResponseTags digest text := by
  rw [parseResponseTags, parseResponseTags, extractSuggestions_cons blank]
  dsimp only
  rw [extractIntent_cons blank, strip_squeezeLines_cons blank]

theorem parsedContent_cons (blank : isSpace c = true) :
    parsedContent digest (c :: text) = parsedContent digest text := by
  rw [parsedContent, parsedContent]
  rcases @stripHallucinatedToolTrace_cons c text blank with kept | kept
  · rw [kept, dropVoiceTag_cons blank, parseResponseTags_cons blank]
  · rw [kept]

/-- Both presentations see a text up to the blanks before it. -/
theorem prepare_eq_of_lstrip {Actions : Type} {presentation : TelegramPresentation Actions}
    (same : lstrip first = lstrip second) :
    presentation.prepare digest first = presentation.prepare digest second := by
  have parsed : parsedContent digest first = parsedContent digest second :=
    eq_of_lstrip_eq (fun _ _ blank => parsedContent_cons blank) same
  rw [TelegramPresentation.prepare, TelegramPresentation.prepare, parsed]

end

/-! ## What a reading has of a text -/

/-- A text that may still become the tag. -/
def Held (text : Text) : Prop :=
  lstrip text <+: voiceTag ∧ (lstrip text).length < voiceTag.length

/-- A text that begins with the tag, up to blanks. -/
def Voiced (text : Text) : Prop := voiceTag <+: lstrip text

def behindTag (text : Text) : Text := (lstrip text).drop voiceTag.length

/-- What is to be shown of a text: all of it, or what is behind the tag up to blanks. -/
def ShownOf (text shown : Text) : Prop :=
  (Voiced text → lstrip shown = lstrip (behindTag text)) ∧ (¬Voiced text → shown = text)

theorem Held.not_voiced {text : Text} (held : Held text) : ¬Voiced text := by
  intro voiced
  exact absurd voiced.length_le (Nat.not_le.mpr held.2)

theorem Voiced.ne_nil {text : Text} (voiced : Voiced text) : lstrip text ≠ [] := by
  intro empty
  rw [Voiced, empty, List.prefix_nil] at voiced
  exact absurd voiced (by decide)

theorem ne_nil_of_not_held {text : Text} (decided : ¬Held text) : lstrip text ≠ [] := by
  intro empty
  refine decided ?_
  rw [Held, empty]
  exact ⟨List.nil_prefix, by decide⟩

theorem Voiced.append {text : Text} (voiced : Voiced text) (delta : Text) :
    Voiced (text ++ delta) := by
  rw [Voiced, lstrip_append_of_ne voiced.ne_nil]
  exact voiced.trans (List.prefix_append _ _)

theorem Voiced.behindTag_append {text : Text} (voiced : Voiced text) (delta : Text) :
    behindTag (text ++ delta) = behindTag text ++ delta := by
  rw [behindTag, behindTag, lstrip_append_of_ne voiced.ne_nil,
    List.drop_append_of_le_length voiced.length_le]

/-- A text that was decided stays so. -/
theorem not_held_append {text : Text} (decided : ¬Held text) (delta : Text) :
    ¬Held (text ++ delta) := by
  rintro ⟨front, short⟩
  rw [lstrip_append_of_ne (ne_nil_of_not_held decided)] at front short
  rw [List.length_append] at short
  exact decided ⟨(List.prefix_append _ _).trans front, by omega⟩

theorem not_voiced_append {text : Text} (decided : ¬Held text) (unvoiced : ¬Voiced text)
    (delta : Text) : ¬Voiced (text ++ delta) := by
  intro voiced
  rw [Voiced, lstrip_append_of_ne (ne_nil_of_not_held decided)] at voiced
  rcases List.prefix_or_prefix_of_prefix voiced (List.prefix_append (lstrip text) delta) with
    whole | front
  · exact unvoiced whole
  · refine decided ⟨front, lt_of_le_of_ne front.length_le fun long => unvoiced ?_⟩
    have same : lstrip text = voiceTag := front.eq_of_length long
    exact List.prefix_iff_eq_take.mpr (by rw [same, List.take_length])

variable {D R Actions : Type}

namespace Reading

variable {reading : Reading D} {text : Text}

theorem appendVisible_flatten (reading : Reading D) (text : Text) :
    (reading.appendVisible text).rawParts.flatten = reading.rawParts.flatten ++ text := by
  rw [appendVisible]
  split
  · rename_i empty
    rw [empty, List.append_nil]
  · simp

@[simp] theorem appendVisible_prefixDecided (reading : Reading D) (text : Text) :
    (reading.appendVisible text).prefixDecided = reading.prefixDecided := by
  rw [appendVisible]
  split <;> rfl

@[simp] theorem appendVisible_voiceRequested (reading : Reading D) (text : Text) :
    (reading.appendVisible text).voiceRequested = reading.voiceRequested := by
  rw [appendVisible]
  split <;> rfl

@[simp] theorem appendVisible_terminal (reading : Reading D) (text : Text) :
    (reading.appendVisible text).terminal = reading.terminal := by
  rw [appendVisible]
  split <;> rfl

theorem rawParts_prefix_appendVisible (reading : Reading D) (text : Text) :
    reading.rawParts <+: (reading.appendVisible text).rawParts := by
  rw [appendVisible]
  split
  · exact List.prefix_rfl
  · exact List.prefix_append _ _

/-- The reading of a text, whatever the chunks were. -/
inductive Reads (reading : Reading D) (text : Text) : Prop where
  | held (undecided : reading.prefixDecided = false) (quiet : reading.voiceRequested = false)
      (waits : Held text) (buffered : reading.prefixBuffer = text)
      (hidden : reading.rawParts = [])
  | plain (decided : reading.prefixDecided = true) (quiet : reading.voiceRequested = false)
      (free : ¬Held text) (unvoiced : ¬Voiced text) (shown : reading.rawParts.flatten = text)
  | voiced (decided : reading.prefixDecided = true) (asked : reading.voiceRequested = true)
      (tagged : Voiced text)
      (shown : lstrip reading.rawParts.flatten = lstrip (behindTag text))

theorem Reads.start : ({} : Reading D).Reads [] :=
  .held rfl rfl ⟨List.nil_prefix, by decide⟩ rfl rfl

/-- A chunk goes to the end of the text that was read. -/
theorem Reads.readText (reads : reading.Reads text) (delta : Text) :
    (reading.readText delta).Reads (text ++ delta) := by
  cases reads with
  | held undecided quiet waits buffered hidden =>
    rw [Reading.readText, if_neg (by rw [undecided]; decide)]
    dsimp only
    rw [buffered]
    by_cases waiting : Held (text ++ delta)
    · rw [if_pos (show lstrip (text ++ delta) <+: voiceTag ∧ _ from waiting)]
      exact .held undecided quiet waiting rfl hidden
    · rw [if_neg (show ¬(lstrip (text ++ delta) <+: voiceTag ∧ _) from waiting)]
      by_cases tagged : Voiced (text ++ delta)
      · rw [if_pos (show voiceTag <+: lstrip (text ++ delta) from tagged)]
        refine .voiced (by simp) (by simp) tagged ?_
        rw [appendVisible_flatten, hidden, List.flatten_nil, List.nil_append, lstrip_lstrip]
        rfl
      · rw [if_neg (show ¬voiceTag <+: lstrip (text ++ delta) from tagged)]
        refine .plain (by simp) (by simpa using quiet) waiting tagged ?_
        rw [appendVisible_flatten, hidden, List.flatten_nil, List.nil_append]
  | plain decided quiet free unvoiced shown =>
    rw [Reading.readText, if_pos decided]
    refine .plain (by simpa using decided) (by simpa using quiet) (not_held_append free delta)
      (not_voiced_append free unvoiced delta) ?_
    rw [appendVisible_flatten, shown]
  | voiced decided asked tagged shown =>
    rw [Reading.readText, if_pos decided]
    refine .voiced (by simpa using decided) (by simpa using asked) (tagged.append delta) ?_
    rw [appendVisible_flatten, tagged.behindTag_append, lstrip_append, shown, ← lstrip_append]

@[simp] theorem readText_terminal (reading : Reading D) (text : Text) :
    (reading.readText text).terminal = reading.terminal := by
  rw [readText]
  split
  · exact appendVisible_terminal _ _
  · dsimp only
    split
    · rfl
    · split
      · exact appendVisible_terminal _ _
      · exact appendVisible_terminal _ _

theorem rawParts_prefix_readText (reading : Reading D) (text : Text) :
    reading.rawParts <+: (reading.readText text).rawParts := by
  rw [readText]
  split
  · exact rawParts_prefix_appendVisible _ _
  · dsimp only
    split
    · exact List.prefix_rfl
    · split
      · exact rawParts_prefix_appendVisible { reading with
          voiceRequested := true, prefixDecided := true, prefixBuffer := [] } _
      · exact rawParts_prefix_appendVisible { reading with
          prefixDecided := true, prefixBuffer := [] } _

/-- Chunk after chunk. -/
def readAll (reading : Reading D) (deltas : List TextDelta) : Reading D :=
  deltas.foldl (fun reading delta => reading.readText delta.text) reading

end Reading

/-- The text that was cut. -/
def joined (deltas : List TextDelta) : Text := (deltas.map TextDelta.text).flatten

namespace Reading

variable {reading : Reading D} {text : Text}

theorem Reads.readAll (reads : reading.Reads text) (deltas : List TextDelta) :
    (reading.readAll deltas).Reads (text ++ joined deltas) := by
  induction deltas generalizing reading text with
  | nil =>
    rw [joined, List.map_nil, List.flatten_nil, List.append_nil]
    exact reads
  | cons delta rest ih =>
    have next := ih (reads.readText delta.text)
    rw [List.append_assoc] at next
    exact next

theorem readAll_terminal (reading : Reading D) (deltas : List TextDelta) :
    (reading.readAll deltas).terminal = reading.terminal := by
  induction deltas generalizing reading with
  | nil => rfl
  | cons delta rest ih => exact (ih (reading.readText delta.text)).trans (readText_terminal _ _)

theorem rawParts_prefix_readAll (reading : Reading D) (deltas : List TextDelta) :
    reading.rawParts <+: (reading.readAll deltas).rawParts := by
  induction deltas generalizing reading with
  | nil => exact List.prefix_rfl
  | cons delta rest ih =>
    exact (rawParts_prefix_readText reading delta.text).trans (ih (reading.readText delta.text))

theorem stream_text (opened : reading.terminal = none) (delta : TextDelta)
    (rest : List (Event D)) :
    reading.stream (.text delta :: rest) = (reading.readText delta.text).stream rest := by
  simp only [stream, take, opened]

theorem stream_terminal (opened : reading.terminal = none) (event : Terminal D)
    (rest : List (Event D)) :
    reading.stream (.terminal event :: rest) =
      ({ reading with terminal := some event } : Reading D).stream rest := by
  simp only [stream, take, opened]

/-- The chunks at the front of a stream are read first. -/
theorem stream_append (opened : reading.terminal = none) (deltas : List TextDelta)
    (rest : List (Event D)) :
    reading.stream (deltas.map .text ++ rest) = (reading.readAll deltas).stream rest := by
  induction deltas generalizing reading with
  | nil => rfl
  | cons delta deltas ih =>
    rw [List.map_cons, List.cons_append, stream_text opened]
    exact ih ((readText_terminal _ _).trans opened)

/-- A stream that ends well is chunks of text with one terminal event behind them. -/
theorem stream_ok {events : List (Event D)} {event : Terminal D}
    (ended : (reading.stream events).2 = .ok event) :
    (reading.terminal = some event ∧ events = []) ∨
      reading.terminal = none ∧ ∃ deltas : List TextDelta,
        events = deltas.map .text ++ [.terminal event] := by
  induction events generalizing reading with
  | nil =>
    cases known : reading.terminal with
    | none => simp [stream, known] at ended
    | some other => exact .inl ⟨by simpa [stream, known] using ended, rfl⟩
  | cons first rest ih =>
    cases known : reading.terminal with
    | some other => simp [stream, take, known] at ended
    | none =>
      refine .inr ⟨rfl, ?_⟩
      cases first with
      | text delta =>
        rw [stream_text known] at ended
        rcases ih ended with ⟨closed, _⟩ | ⟨_, deltas, same⟩
        · rw [readText_terminal, known] at closed
          exact absurd closed (by simp)
        · exact ⟨delta :: deltas, by rw [same, List.map_cons, List.cons_append]⟩
      | terminal given =>
        rw [stream_terminal known] at ended
        rcases ih ended with ⟨closed, empty⟩ | ⟨opened, _⟩
        · exact ⟨[], by rw [empty, Option.some.inj closed]; rfl⟩
        · exact absurd opened (by simp)
      | unsupported typeName => simp [stream, take, known] at ended

/-- What was read is shown once the stream has ended. -/
theorem Reads.flush (reads : reading.Reads text) :
    (reading.flush.voiceRequested = true ↔ Voiced text) ∧
      ShownOf text reading.flush.rawParts.flatten := by
  cases reads with
  | held undecided quiet waits buffered hidden =>
    have unvoiced := waits.not_voiced
    have kept : reading.flush.voiceRequested = false := by
      rw [Reading.flush]
      split
      · exact (appendVisible_voiceRequested _ _).trans quiet
      · exact quiet
    refine ⟨by simp [kept, unvoiced], fun voiced => absurd voiced unvoiced, fun _ => ?_⟩
    rw [Reading.flush]
    split
    · rw [appendVisible_flatten, hidden, buffered, List.flatten_nil, List.nil_append]
    · rename_i nothing
      rw [undecided] at nothing
      rw [hidden, ← buffered]
      exact (by simpa using nothing : reading.prefixBuffer = []).symm
  | plain decided quiet free unvoiced shown =>
    rw [Reading.flush, if_neg (by simp [decided])]
    exact ⟨by simp [quiet, unvoiced], fun voiced => absurd voiced unvoiced, fun _ => shown⟩
  | voiced decided asked tagged shown =>
    rw [Reading.flush, if_neg (by simp [decided])]
    exact ⟨by simp [asked, tagged], fun _ => shown, fun unvoiced => absurd tagged unvoiced⟩

theorem rawParts_prefix_flush (reading : Reading D) :
    reading.rawParts <+: reading.flush.rawParts := by
  rw [flush]
  split
  · exact rawParts_prefix_appendVisible _ _
  · exact List.prefix_rfl

/-- Nothing is shown of a text that may still become the tag. -/
theorem Reads.rawParts_of_held (reads : reading.Reads text) (waits : Held text) :
    reading.rawParts = [] := by
  cases reads with
  | held _ _ _ _ hidden => exact hidden
  | plain _ _ free => exact absurd waits free
  | voiced _ _ tagged => exact absurd tagged waits.not_voiced

theorem Reads.closed (reads : reading.Reads text) (event : Terminal D) :
    ({ reading with terminal := some event } : Reading D).Reads text := by
  cases reads with
  | held undecided quiet waits buffered hidden =>
    exact .held undecided quiet waits buffered hidden
  | plain decided quiet free unvoiced shown => exact .plain decided quiet free unvoiced shown
  | voiced decided asked tagged shown => exact .voiced decided asked tagged shown

end Reading

/-! ## The run -/

/-- The stream of an answer. -/
def answer (deltas : List TextDelta) (terminal : Terminal D) : List (Event D) :=
  deltas.map .text ++ [.terminal terminal]

variable (D) in
/-- What the renderer was given while these chunks were read. -/
def shownAfter (deltas : List TextDelta) : List Text :=
  (({} : Reading D).stream (deltas.map .text)).1.rawParts

theorem shownAfter_eq (deltas : List TextDelta) :
    shownAfter D deltas = (({} : Reading D).readAll deltas).rawParts := by
  have opened := Reading.readAll_terminal ({} : Reading D) deltas
  have read := @Reading.stream_append D {} rfl deltas []
  rw [List.append_nil] at read
  rw [shownAfter, read, Reading.stream, opened]

theorem stream_answer (deltas : List TextDelta) (terminal : Terminal D) :
    ({} : Reading D).stream (answer deltas terminal) =
      ({ ({} : Reading D).readAll deltas with terminal := some terminal }, .ok terminal) := by
  rw [answer, Reading.stream_append rfl, Reading.stream_terminal (Reading.readAll_terminal _ _)]
  rfl

/-- The reading from which an answer is concluded. -/
def concluded (deltas : List TextDelta) (terminal : Terminal D) : Reading D :=
  ({ ({} : Reading D).readAll deltas with terminal := some terminal } : Reading D).flush

theorem concluded_shows (deltas : List TextDelta) (terminal : Terminal D) :
    ((concluded deltas terminal).voiceRequested = true ↔ Voiced (joined deltas)) ∧
      ShownOf (joined deltas) (concluded deltas terminal).rawParts.flatten :=
  ((Reading.Reads.start.readAll deltas).closed terminal).flush

/-- Two texts that are to be shown of one text differ by blanks at the front. -/
theorem ShownOf.lstrip_eq {text first second : Text} (one : ShownOf text first)
    (two : ShownOf text second) : lstrip first = lstrip second := by
  by_cases voiced : Voiced text
  · rw [one.1 voiced, two.1 voiced]
  · rw [one.2 voiced, two.2 voiced]

section

variable {userMessage : ErrorCode → Text} {digest : Text → Text}
  {presentation : TelegramPresentation Actions}

theorem run_answer (deltas : List TextDelta) (terminal : Terminal D) :
    run (R := R) userMessage digest presentation (answer deltas terminal) =
      let reading := concluded deltas terminal
      let concluding := conclude userMessage
        (presentation.prepare digest reading.rawParts.flatten) reading.voiceRequested terminal
      ⟨reading.rawParts, reading.voiceRequested, [concluding.1], .ok concluding.2⟩ := by
  rw [run, stream_answer]
  rfl

theorem run_error {events : List (Event D)} {error : Text}
    (raised : (({} : Reading D).stream events).2 = .error error) :
    (run (R := R) userMessage digest presentation events).finalized = [] ∧
      (run (R := R) userMessage digest presentation events).returned = .error error := by
  rw [run]
  rcases outcome : ({} : Reading D).stream events with ⟨reading, ended⟩
  rw [outcome] at raised
  obtain rfl : ended = .error error := raised
  exact ⟨rfl, rfl⟩

end

/-- However the text of an answer is cut, the same voice is asked for, the same text is shown
but for blanks at its front, no part of the tag is shown before it is known not to be the
tag, and the same is finalized and returned.  Any other stream finalizes nothing. -/
theorem chunking_keeps_the_answer (userMessage : ErrorCode → Text) (digest : Text → Text)
    (presentation : TelegramPresentation Actions) :
    (∀ (deltas : List TextDelta) (terminal : Terminal D),
      let delivered := run (R := R) userMessage digest presentation (answer deltas terminal)
      (delivered.voiceRequested = true ↔ Voiced (joined deltas)) ∧
        ShownOf (joined deltas) delivered.appended.flatten ∧
        ∀ before behind, deltas = before ++ behind → shownAfter D before <+: delivered.appended ∧
            (Held (joined before) → shownAfter D before = [])) ∧
    (∀ (first second : List TextDelta) (terminal : Terminal D), joined first = joined second →
      let one := run (R := R) userMessage digest presentation (answer first terminal)
      let two := run (R := R) userMessage digest presentation (answer second terminal)
      one.voiceRequested = two.voiceRequested ∧
        lstrip one.appended.flatten = lstrip two.appended.flatten ∧
        ∃ finalization outcome, one.finalized = [finalization] ∧ two.finalized = [finalization] ∧
          one.returned = .ok outcome ∧ two.returned = .ok outcome) ∧
    ∀ events : List (Event D), (∀ deltas terminal, events ≠ answer deltas terminal) →
      let delivered := run (R := R) userMessage digest presentation events
      delivered.finalized = [] ∧ ∃ error, delivered.returned = .error error := by
  refine ⟨?_, ?_, ?_⟩
  · intro deltas terminal delivered
    have ran : delivered = _ := run_answer deltas terminal
    obtain ⟨voice, shows⟩ := concluded_shows deltas terminal
    rw [ran]
    refine ⟨voice, shows, ?_⟩
    rintro before behind rfl
    rw [shownAfter_eq]
    constructor
    · have later := Reading.rawParts_prefix_readAll (({} : Reading D).readAll before) behind
      rw [Reading.readAll, Reading.readAll, ← List.foldl_append] at later
      exact later.trans (Reading.rawParts_prefix_flush
        { ({} : Reading D).readAll (before ++ behind) with terminal := some terminal })
    · exact (Reading.Reads.start.readAll before).rawParts_of_held
  · intro first second terminal same one two
    have ranOne : one = _ := run_answer first terminal
    have ranTwo : two = _ := run_answer second terminal
    obtain ⟨voiceOne, showsOne⟩ := concluded_shows first terminal
    obtain ⟨voiceTwo, showsTwo⟩ := concluded_shows second terminal
    rw [← same] at voiceTwo showsTwo
    have voice := Bool.eq_iff_iff.mpr (voiceOne.trans voiceTwo.symm)
    have shown := showsOne.lstrip_eq showsTwo
    have prepared : presentation.prepare digest _ = presentation.prepare digest _ :=
      prepare_eq_of_lstrip shown
    rw [ranOne, ranTwo]
    dsimp only
    rw [voice, prepared]
    exact ⟨rfl, shown, _, _, rfl, rfl, rfl, rfl⟩
  · intro events other delivered
    cases ended : (({} : Reading D).stream events).2 with
    | error error => exact ⟨(run_error ended).1, error, (run_error ended).2⟩
    | ok terminal =>
      rcases Reading.stream_ok ended with ⟨closed, _⟩ | ⟨_, deltas, same⟩
      · exact absurd closed (by simp)
      · exact absurd same (other deltas terminal)

/-- A tag cut in two. -/
theorem cutTag_keeps_the_answer :
    ∃ finalization : Finalization Unit,
      (run (D := Unit) (R := Unit) (fun _ => []) id (.fixed none ⟨none, none, [], [], []⟩)
        (answer [⟨"[VO".toList, by decide⟩, ⟨"ICE] hi".toList, by decide⟩]
          (.completed .stop ()))).finalized = [finalization] ∧
      (run (D := Unit) (R := Unit) (fun _ => []) id (.fixed none ⟨none, none, [], [], []⟩)
        (answer [⟨"[VOICE]".toList, by decide⟩, ⟨" hi".toList, by decide⟩]
          (.completed .stop ()))).finalized = [finalization] := by
  obtain ⟨_, _, finalization, _, one, two, _⟩ :=
    (chunking_keeps_the_answer (D := Unit) (R := Unit) (fun _ => []) id
      (.fixed none ⟨none, none, [], [], []⟩ : TelegramPresentation Unit)).2.1
      [⟨"[VO".toList, by decide⟩, ⟨"ICE] hi".toList, by decide⟩]
      [⟨"[VOICE]".toList, by decide⟩, ⟨" hi".toList, by decide⟩] (.completed .stop ()) (by decide)
  exact ⟨finalization, one, two⟩

end BobbyBotique.Delivery.Stream
