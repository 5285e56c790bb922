import BobbyBotique.Documents.Chunking

/-!
# What the chunks of a document cover

Every way to cut hands out overlapping pieces of the text.  What is cut at a separator may
lose the separator; one of the four is visible, and its period is all that can be lost.
-/

namespace BobbyBotique.Documents

variable {limits : ChunkLimits}

/-! ## Hard cuts -/

theorem hardSplit_nil (limits : ChunkLimits) : hardSplit limits [] = [] := by
  rw [hardSplit, if_pos rfl]

/-- The pieces are not empty and not too long. -/
theorem hardSplit_pieces (text : Text) :
    ∀ chunk ∈ hardSplit limits text, chunk ≠ [] ∧ chunk.length ≤ limits.maxChars := by
  induction text using hardSplit_induction limits with
  | empty =>
    rw [hardSplit_nil]
    exact fun _ member => nomatch member
  | step text some ih =>
    rw [hardSplit_eq limits some]
    intro chunk member
    rcases List.mem_append.mp member with first | later
    · split at first
      · cases first
      · next some' =>
          rw [List.mem_singleton.mp first]
          refine ⟨some', (strip_isInfix _).length_le.trans ?_⟩
          rw [List.length_take]
          exact Nat.min_le_left _ _
    · split at later
      · next longer => exact ih longer chunk later
      · cases later

theorem hardSplit_short (text : Text) :
    ∀ chunk ∈ hardSplit limits text, chunk.length ≤ limits.maxChars :=
  fun chunk member => (hardSplit_pieces text chunk member).2

/-- Behind the cuts of a text that is not blank its last piece goes on. -/
theorem hardSplit_getLast {text : Text} (seen : visible text ≠ []) :
    (hardSplit limits text).getLast?.getD [] ≠ [] := by
  have some : hardSplit limits text ≠ [] :=
    hardSplit_ne_nil fun blank => seen (strip_eq_nil_iff.mp blank)
  rw [List.getLast?_eq_some_getLast some]
  exact (hardSplit_pieces text _ (List.getLast_mem some)).1

/-- The windows of a text continue the pieces that its overlap comes from. -/
theorem hardSplit_overlapping (text : Text) {chunks : List Text} {letters fresh : Text}
    (before : Overlapping limits.overlapChars chunks letters)
    (continues : Continues limits.overlapChars (chunks.getLast?.getD []) text fresh) :
    Overlapping limits.overlapChars (chunks ++ hardSplit limits text) (letters ++ fresh) := by
  induction text using hardSplit_induction limits generalizing chunks letters fresh with
  | empty =>
    rw [hardSplit_nil, continues.blank rfl, List.append_nil, List.append_nil]
    exact before
  | step text some ih =>
    obtain ⟨early, first, rfl⟩ := continues.take (Nat.le_of_lt limits.overlaps)
    have window : Continues limits.overlapChars (text.take limits.maxChars)
        (text.drop (limits.maxChars - limits.overlapChars))
        (visible (text.drop limits.maxChars)) :=
      Continues.window text (Nat.le_of_lt limits.overlaps)
    have rest : ¬ limits.maxChars < text.length → text.drop limits.maxChars = [] :=
      fun short => List.drop_of_length_le (Nat.le_of_not_lt short)
    rw [hardSplit_eq limits some]
    by_cases blank : strip (text.take limits.maxChars) = []
    · have unseen := strip_eq_nil_iff.mp blank
      rw [if_pos blank, first.blank unseen, List.nil_append, List.nil_append]
      split
      · next longer =>
          refine ih longer before (window.mono ?_)
          rw [unseen]
          exact List.nil_suffix
      · next short =>
          rw [rest short, visible_nil, List.append_nil, List.append_nil]
          exact before
    · have one := before.snoc first.strip
      rw [if_neg blank, ← List.append_assoc, ← List.append_assoc]
      split
      · next longer =>
          refine ih longer one (window.mono ?_)
          rw [List.getLast?_concat, Option.getD_some, visible_strip]
      · next short =>
          rw [rest short, visible_nil, List.append_nil, List.append_nil]
          exact one

/-! ## Merged parts -/

/-- What `_merge_parts` holds: overlapping chunks, the text that goes on behind them, and
the letters that both have handed out. -/
structure Merged (limits : ChunkLimits) (state : MergeState) (letters : Text) : Prop where
  covers : ∃ before fresh, Overlapping limits.overlapChars state.chunks before ∧
    Continues limits.overlapChars (state.chunks.getLast?.getD []) state.current fresh ∧
      letters = before ++ fresh
  short : ∀ chunk ∈ state.chunks, chunk.length ≤ limits.maxChars
  within : state.current.length ≤ limits.maxChars

/-- The chunks once the current text is handed out. -/
def MergeState.flushed (state : MergeState) : List Text :=
  if state.current = [] then state.chunks else state.chunks ++ [strip state.current]

theorem Merged.flush {state : MergeState} {letters : Text} (merged : Merged limits state letters) :
    Overlapping limits.overlapChars state.flushed letters ∧
      ∀ chunk ∈ state.flushed, chunk.length ≤ limits.maxChars := by
  obtain ⟨⟨before, fresh, chunks, current, rfl⟩, short, within⟩ := merged
  unfold MergeState.flushed
  split
  · next none =>
      rw [current.blank (by rw [none]; rfl), List.append_nil]
      exact ⟨chunks, short⟩
  · refine ⟨chunks.snoc current.strip, fun chunk member => ?_⟩
    rcases List.mem_append.mp member with old | new
    · exact short chunk old
    · rw [List.mem_singleton.mp new]
      exact (strip_isInfix _).length_le.trans within

/-- At the end a blank text is left out. -/
theorem Merged.close {state : MergeState} {letters : Text} (merged : Merged limits state letters) :
    let chunks := if strip state.current = [] then state.chunks
      else state.chunks ++ [strip state.current]
    Overlapping limits.overlapChars chunks letters ∧
      ∀ chunk ∈ chunks, chunk.length ≤ limits.maxChars := by
  intro chunks
  by_cases blank : strip state.current = []
  · obtain ⟨⟨before, fresh, overlapping, current, rfl⟩, short, -⟩ := merged
    rw [show chunks = state.chunks from if_pos blank, current.blank (strip_eq_nil_iff.mp blank),
      List.append_nil]
    exact ⟨overlapping, short⟩
  · have some : ¬ state.current = [] := fun none => blank (by rw [none]; rfl)
    have flushed := merged.flush
    rw [MergeState.flushed, if_neg some] at flushed
    rw [show chunks = state.chunks ++ [strip state.current] from if_neg blank]
    exact flushed

theorem startCurrent_nil (separator part : Text) : startCurrent limits separator part [] = part :=
  rfl

/-- A new chunk begins with an overlap and the separator. -/
theorem startCurrent_overlap (overlaps : 0 < limits.overlapChars) (separator part : Text)
    {chunks : List Text} (some : chunks ≠ []) :
    startCurrent limits separator part chunks =
      (chunks.getLast?.getD []).drop ((chunks.getLast?.getD []).length - limits.overlapChars) ++
        (separator ++ part) := by
  unfold startCurrent
  rw [List.getLast?_eq_some_getLast some]
  dsimp only
  rw [if_pos overlaps, List.append_assoc]
  rfl

/-- Without chunks before it or without overlap a new chunk begins with its part. -/
theorem startCurrent_continues (separator part : Text) (chunks : List Text) :
    ∃ glue, (glue = visible separator ∨ glue = [] ∧ (chunks = [] ∨ ¬ 0 < limits.overlapChars)) ∧
      Continues limits.overlapChars (chunks.getLast?.getD [])
        (startCurrent limits separator part chunks) (glue ++ visible part) := by
  by_cases none : chunks = []
  · rw [none]
    exact ⟨[], .inr ⟨rfl, .inl rfl⟩, .all _ _ _⟩
  · by_cases overlaps : 0 < limits.overlapChars
    · refine ⟨visible separator, .inl rfl, ?_⟩
      rw [startCurrent_overlap overlaps separator part none, ← visible_append]
      exact .tail _ _ _
    · refine ⟨[], .inr ⟨rfl, .inr overlaps⟩, ?_⟩
      unfold startCurrent
      rw [List.getLast?_eq_some_getLast none]
      dsimp only
      rw [if_neg overlaps]
      exact .all _ _ _

/-- A new chunk that is too long is cut hard, and its last piece goes on. -/
theorem cut_merged {chunks : List Text} {current before fresh : Text}
    (overlapping : Overlapping limits.overlapChars chunks before)
    (short : ∀ chunk ∈ chunks, chunk.length ≤ limits.maxChars)
    (continues : Continues limits.overlapChars (chunks.getLast?.getD []) current fresh) :
    Merged limits
      (if limits.maxChars < current.length then
        ⟨chunks ++ (hardSplit limits current).dropLast, (hardSplit limits current).getLast?.getD []⟩
      else ⟨chunks, current⟩) (before ++ fresh) := by
  split
  · have cut := hardSplit_overlapping current overlapping continues
    have pieces : ∀ chunk ∈ hardSplit limits current, chunk.length ≤ limits.maxChars :=
      hardSplit_short current
    generalize hardSplit limits current = subChunks at cut pieces
    cases subChunks using List.reverseRecOn with
    | nil =>
      rw [List.append_nil] at cut
      refine ⟨⟨before ++ fresh, [], ?_, .all _ _ [], (List.append_nil _).symm⟩, ?_, Nat.zero_le _⟩
      · simpa using cut
      · simpa using short
    | append_singleton init last =>
      rw [← List.append_assoc] at cut
      obtain ⟨early, late, one, two, whole⟩ := cut.unsnoc
      rw [List.dropLast_concat, List.getLast?_concat]
      refine ⟨⟨early, late, one, two, whole⟩, fun chunk member => ?_, ?_⟩
      · rcases List.mem_append.mp member with old | new
        · exact short chunk old
        · exact pieces chunk (List.mem_append_left _ new)
      · exact pieces last (List.mem_append_right _ (List.mem_singleton_self last))
  · next fits => exact ⟨⟨before, fresh, overlapping, continues, rfl⟩, short, Nat.le_of_not_lt fits⟩

/-- The separator before a part is dropped where nothing goes on, or without overlap. -/
def Drops (limits : ChunkLimits) (state : MergeState) : Prop :=
  state.current = [] ∨ ¬ 0 < limits.overlapChars

/-- One part is handed out, with the separator before it or without. -/
theorem Merged.part {state : MergeState} {letters : Text} (merged : Merged limits state letters)
    (separator part : Text) :
    ∃ glue, (glue = visible separator ∨ glue = [] ∧ Drops limits state) ∧
      Merged limits (mergePart limits separator state part)
        (letters ++ (glue ++ visible part)) := by
  unfold mergePart
  dsimp only
  by_cases fits : (if state.current = [] then part else
      state.current ++ separator ++ part).length ≤ limits.maxChars
  · obtain ⟨⟨before, fresh, chunks, current, rfl⟩, short, -⟩ := merged
    rw [if_pos fits]
    by_cases none : state.current = []
    · rw [if_pos none] at fits ⊢
      rw [current.blank (by rw [none]; rfl)]
      refine ⟨[], .inr ⟨rfl, .inl none⟩,
        ⟨before, visible part, chunks, .all _ _ _, ?_⟩, short, fits⟩
      rw [List.append_nil, List.nil_append]
    · rw [if_neg none] at fits ⊢
      refine ⟨visible separator, .inl rfl,
        ⟨before, _, chunks, (current.append separator).append part, ?_⟩, short, fits⟩
      simp only [List.append_assoc]
  · rw [if_neg fits]
    obtain ⟨overlapping, short⟩ := merged.flush
    obtain ⟨glue, glued, continues⟩ :=
      @startCurrent_continues limits separator part state.flushed
    refine ⟨glue, glued.imp_right fun both => ⟨both.1, both.2.imp_left fun none => ?_⟩,
      cut_merged overlapping short continues⟩
    by_contra some
    rw [MergeState.flushed, if_neg some] at none
    exact List.concat_ne_nil _ _ none

/-- With an overlap and a separator that is seen, a chunk is always followed by a text. -/
theorem mergePart_goes_on (overlaps : 0 < limits.overlapChars) {separator : Text}
    (seen : visible separator ≠ []) {state : MergeState}
    (goesOn : state.current = [] → state.chunks = []) (part : Text) :
    (mergePart limits separator state part).current = [] →
      (mergePart limits separator state part).chunks = [] := by
  unfold mergePart
  dsimp only
  by_cases fits : (if state.current = [] then part else
      state.current ++ separator ++ part).length ≤ limits.maxChars
  · rw [if_pos fits]
    by_cases none : state.current = []
    · exact fun _ => goesOn none
    · rw [if_neg none, List.append_assoc]
      exact fun empty => absurd (List.append_eq_nil_iff.mp empty).1 none
  · rw [if_neg fits]
    by_cases none : state.current = []
    · rw [if_pos none, goesOn none, startCurrent_nil]
      split
      · cases subChunks : hardSplit limits part using List.reverseRecOn with
        | nil => exact fun _ => rfl
        | append_singleton init last =>
          rw [List.getLast?_concat]
          intro empty
          have piece := @hardSplit_pieces limits part last
            (subChunks ▸ List.mem_append_right _ (List.mem_singleton_self last))
          exact absurd empty piece.1
      · exact fun _ => rfl
    · rw [if_neg none]
      have shown : visible (startCurrent limits separator part
          (state.chunks ++ [strip state.current])) ≠ [] := by
        rw [startCurrent_overlap overlaps separator part (List.concat_ne_nil _ _), visible_append,
          visible_append]
        exact List.append_ne_nil_of_right_ne_nil _ (List.append_ne_nil_of_left_ne_nil seen _)
      split
      · exact fun empty => absurd empty (hardSplit_getLast shown)
      · intro empty
        dsimp only at empty
        rw [empty] at shown
        exact absurd rfl shown

/-- Letters between those of the parts and those of the text: with an overlap, only
separators in front are lost. -/
structure Between (limits : ChunkLimits) (separator low letters high : Text) : Prop where
  most : low.Sublist letters
  least : letters.Sublist high
  front : 0 < limits.overlapChars → visible separator ≠ [] →
    ∃ lost, high = lost ++ letters ∧ ∀ c ∈ lost, c ∈ visible separator

theorem Between.refl (limits : ChunkLimits) (separator letters : Text) :
    Between limits separator letters letters letters :=
  ⟨.refl _, .refl _, fun _ _ => ⟨[], rfl, nofun⟩⟩

theorem Between.step {separator low letters high glue : Text}
    (between : Between limits separator low letters high)
    (glued : glue = visible separator ∨ glue = [] ∧
      (0 < limits.overlapChars → visible separator ≠ [] → letters = [])) (part : Text) :
    Between limits separator (low ++ part) (letters ++ (glue ++ part))
      (high ++ (visible separator ++ part)) := by
  obtain ⟨most, least, front⟩ := between
  refine ⟨most.append (List.sublist_append_right _ _), ?_, fun overlaps seen => ?_⟩
  · refine least.append (List.Sublist.append ?_ (List.Sublist.refl _))
    rcases glued with rfl | ⟨rfl, -⟩
    · exact List.Sublist.refl _
    · exact List.nil_sublist _
  · obtain ⟨lost, rfl, periods⟩ := front overlaps seen
    rcases glued with rfl | ⟨rfl, early⟩
    · exact ⟨lost, List.append_assoc _ _ _, periods⟩
    · refine ⟨lost ++ visible separator, ?_, ?_⟩
      · rw [early overlaps seen]
        simp
      · exact List.forall_mem_append.mpr ⟨periods, fun _ member => member⟩

/-- Nothing is handed out before there is a chunk or a text that goes on. -/
theorem Merged.letters_nil {state : MergeState} {letters : Text}
    (merged : Merged limits state letters) (none : state.current = [])
    (unchunked : state.chunks = []) : letters = [] := by
  obtain ⟨⟨before, fresh, chunks, current, rfl⟩, -, -⟩ := merged
  rw [unchunked] at chunks
  rw [current.blank (by rw [none]; rfl), chunks.letters_nil]
  rfl

/-- The parts between the separators, put together again behind the first. -/
theorem Merged.parts (separator : Text) (parts : List Text) {state : MergeState}
    {letters low high : Text} (merged : Merged limits state letters)
    (goesOn : 0 < limits.overlapChars → visible separator ≠ [] →
      state.current = [] → state.chunks = [])
    (between : Between limits separator low letters high) :
    ∃ all, Merged limits (parts.foldl (mergePart limits separator) state) all ∧
      Between limits separator (low ++ visible parts.flatten) all
        (high ++ visible (parts.flatMap (separator ++ ·))) := by
  induction parts generalizing state letters low high with
  | nil =>
    refine ⟨letters, merged, ?_⟩
    simpa using between
  | cons part rest ih =>
    obtain ⟨glue, glued, next⟩ := merged.part separator part
    have step := between.step (glued.imp_right fun both => ⟨both.1, fun overlaps seen =>
      both.2.elim (fun none => merged.letters_nil none (goesOn overlaps seen none))
        fun without => absurd overlaps without⟩) (visible part)
    obtain ⟨all, merged', between'⟩ := ih next
      (fun overlaps seen => mergePart_goes_on overlaps seen (goesOn overlaps seen) part) step
    refine ⟨all, merged', ?_⟩
    simpa [List.append_assoc] using between'

/-- Nothing stands before the first part. -/
theorem merged_first (limits : ChunkLimits) (separator first : Text) :
    Merged limits (mergePart limits separator ⟨[], []⟩ first) (visible first) := by
  unfold mergePart
  dsimp only
  rw [if_pos rfl, if_pos rfl, startCurrent_nil]
  split
  · next fits => exact ⟨⟨[], visible first, .nil, .all _ _ _, rfl⟩, nofun, fits⟩
  · exact cut_merged .nil nofun (.all _ _ first)

theorem mergeParts_overlapping (separator first : Text) (rest : List Text) :
    ∃ letters, Overlapping limits.overlapChars (mergeParts limits separator (first :: rest))
        letters ∧
      (∀ chunk ∈ mergeParts limits separator (first :: rest), chunk.length ≤ limits.maxChars) ∧
      Between limits separator (visible (first :: rest).flatten) letters
        (visible (first ++ rest.flatMap (separator ++ ·))) := by
  obtain ⟨letters, merged, between⟩ := (merged_first limits separator first).parts separator rest
    (fun overlaps seen => mergePart_goes_on overlaps seen (fun _ => rfl) first)
    (Between.refl limits separator (visible first))
  obtain ⟨overlapping, short⟩ := merged.close
  refine ⟨letters, overlapping, short, ?_⟩
  rwa [← visible_append, ← visible_append] at between

/-! ## Separators -/

theorem splitAt_skip (separator : Text) (skip : Nat) (text : Text) :
    splitAt separator skip text = splitAt separator 0 (text.drop skip) := by
  induction text generalizing skip with
  | nil => cases skip <;> rfl
  | cons c rest ih =>
    cases skip with
    | zero => rfl
    | succ skip => exact ih skip

/-- `separator.join(text.split(separator))` is the text. -/
theorem splitOn_rejoins {separator : Text} (some : separator ≠ []) (text : Text) :
    ∃ first rest, splitOn separator text = first :: rest ∧
      text = first ++ rest.flatMap (separator ++ ·) := by
  induction measured : text.length using Nat.strong_induction_on generalizing text with
  | _ size ih =>
    cases text with
    | nil => exact ⟨[], [], rfl, rfl⟩
    | cons c rest =>
      unfold splitOn
      rw [splitAt]
      split
      · next found =>
          obtain ⟨behind, whole⟩ := List.isPrefixOf_iff_prefix.mp found
          obtain ⟨d, others, rfl⟩ := List.exists_cons_of_ne_nil some
          rw [List.cons_append] at whole
          obtain ⟨rfl, same⟩ := List.cons.inj whole
          have dropped : rest.drop others.length = behind := by
            rw [← same, List.drop_left]
          obtain ⟨first, later, parts, rejoined⟩ := ih behind.length (by
            rw [← measured, ← same, List.length_cons, List.length_append]
            omega) behind rfl
          refine ⟨[], first :: later, ?_, ?_⟩
          · rw [splitAt_skip, List.length_cons, Nat.add_sub_cancel, dropped]
            exact congrArg ([] :: ·) parts
          · rw [List.nil_append, List.flatMap_cons, List.append_assoc, ← rejoined]
            exact congrArg (d :: ·) same.symm
      · obtain ⟨first, later, parts, rejoined⟩ := ih rest.length (by
          rw [← measured, List.length_cons]
          omega) rest rfl
        unfold splitOn at parts
        rw [parts]
        exact ⟨c :: first, later, rfl, congrArg (c :: ·) rejoined⟩

/-- A text with a line break has two lines. -/
theorem splitOn_char {c : Char} {text : Text} (member : c ∈ text) :
    1 < (splitOn [c] text).length := by
  unfold splitOn
  induction text with
  | nil => cases member
  | cons d rest ih =>
    rw [splitAt]
    split
    · next found =>
        obtain ⟨first, later, parts, -⟩ := splitOn_rejoins (List.cons_ne_nil c []) rest
        unfold splitOn at parts
        simp [parts]
    · next other =>
        have behind : c ∈ rest := by
          rcases List.mem_cons.mp member with rfl | behind
          · simp at other
          · exact behind
        have lines := ih behind
        split
        · next none =>
            rw [none] at lines
            cases lines
        · next part parts =>
            rw [parts] at lines
            exact lines

/-! ## Coverage -/

/-- The letters of a text without the periods of its `". "`. -/
def unpunctuated (text : Text) : Text := visible (splitOn ". ".toList text).flatten

/-- All letters, or, in a text of one line, all but some periods of its `". "`; with an
overlap these stand in front. -/
def Kept (limits : ChunkLimits) (text letters : Text) : Prop :=
  letters = visible text ∨
    '\n' ∉ text ∧ (unpunctuated text).Sublist letters ∧ letters.Sublist (visible text) ∧
      (0 < limits.overlapChars → ∃ lost, visible text = lost ++ letters ∧ ∀ c ∈ lost, c = '.')

/-- Overlapping chunks of bounded length that keep the letters of a text. -/
def Covered (limits : ChunkLimits) (text : Text) (chunks : List Text) : Prop :=
  (∀ chunk ∈ chunks, chunk.length ≤ limits.maxChars) ∧
    ∃ letters, Overlapping limits.overlapChars chunks letters ∧ Kept limits text letters

theorem mergeParts_splitOn {separator : Text} (some : separator ≠ []) (text : Text) :
    ∃ letters, Overlapping limits.overlapChars
        (mergeParts limits separator (splitOn separator text)) letters ∧
      (∀ chunk ∈ mergeParts limits separator (splitOn separator text),
        chunk.length ≤ limits.maxChars) ∧
      Between limits separator (visible (splitOn separator text).flatten) letters
        (visible text) := by
  obtain ⟨first, rest, parts, rejoined⟩ := splitOn_rejoins some text
  have merged := @mergeParts_overlapping limits separator first rest
  rwa [← parts, ← rejoined] at merged

/-- A blank separator is not missed. -/
theorem visible_flatten {separator : Text} (some : separator ≠ []) (blank : visible separator = [])
    (text : Text) : visible (splitOn separator text).flatten = visible text := by
  obtain ⟨first, rest, parts, rejoined⟩ := splitOn_rejoins some text
  have joined : visible (rest.flatMap (separator ++ ·)) = visible rest.flatten := by
    clear parts rejoined
    induction rest with
    | nil => rfl
    | cons part later ih =>
      rw [List.flatMap_cons, List.flatten_cons, visible_append, visible_append, visible_append,
        blank, ih, List.nil_append]
  rw [parts, List.flatten_cons, visible_append, ← joined, ← visible_append, ← rejoined]

/-- Parts between blank separators keep every letter. -/
theorem mergeParts_blank {separator : Text} (some : separator ≠ [])
    (blank : visible separator = []) (text : Text) :
    (∀ chunk ∈ mergeParts limits separator (splitOn separator text),
        chunk.length ≤ limits.maxChars) ∧
      Overlapping limits.overlapChars (mergeParts limits separator (splitOn separator text))
        (visible text) := by
  obtain ⟨letters, overlapping, short, between⟩ :=
    @mergeParts_splitOn limits separator some text
  have most := between.most
  rw [visible_flatten some blank] at most
  rw [most.antisymm between.least]
  exact ⟨short, overlapping⟩

/-- One separator is taken, or passed by for a reason. -/
theorem splitAtSeparators_cons {text : Text} {separator : Text} {others : List Text}
    {holds : List Text → Prop}
    (taken : holds (mergeParts limits separator (splitOn separator text)))
    (passed : (splitOn separator text).length ≤ 1 ∨
      mergeParts limits separator (splitOn separator text) = [] →
        holds (splitAtSeparators limits text others)) :
    holds (splitAtSeparators limits text (separator :: others)) := by
  rw [splitAtSeparators]
  split
  · exact taken
  · next unused =>
      refine passed ?_
      by_cases cut : 1 < (splitOn separator text).length
      · refine .inr ?_
        by_contra found
        exact unused ⟨cut, found⟩
      · exact .inl (Nat.le_of_not_lt cut)

theorem chunksWithin_covered (limits : ChunkLimits) (text : Text) :
    Covered limits text (chunksWithin limits text) := by
  have exact' : ∀ {chunks : List Text}, (∀ chunk ∈ chunks, chunk.length ≤ limits.maxChars) ∧
        Overlapping limits.overlapChars chunks (visible text) → Covered limits text chunks :=
    fun covers => ⟨covers.1, visible text, covers.2, .inl rfl⟩
  unfold chunksWithin
  split
  · next blank =>
      refine exact' ⟨nofun, ?_⟩
      rw [strip_eq_nil_iff.mp blank]
      exact .nil
  · next seen =>
      split
      · next fits =>
          refine exact' ⟨fun chunk member => ?_, ?_⟩
          · rw [List.mem_singleton.mp member]
            exact (strip_isInfix text).length_le.trans fits
          · have one := Overlapping.nil.snoc (Continues.all limits.overlapChars [] text).strip
            exact one
      · refine splitAtSeparators_cons (exact' (mergeParts_blank (by decide) (by decide) text)) ?_
        intro _
        have lines := @mergeParts_blank limits "\n".toList (by decide) (by decide) text
        refine splitAtSeparators_cons (exact' lines) fun oneLine => ?_
        refine splitAtSeparators_cons ?_ fun _ => ?_
        · obtain ⟨letters, overlapping, short, most, least, front⟩ :=
            @mergeParts_splitOn limits ". ".toList (by decide) text
          refine ⟨short, letters, overlapping, .inr ⟨fun broken => ?_, most, least, ?_⟩⟩
          · rcases oneLine with single | none
            · have two := splitOn_char broken
              exact absurd single (Nat.not_le_of_lt two)
            · rw [none] at lines
              exact seen (strip_eq_nil_iff.mpr lines.2.letters_nil)
          · intro overlaps
            obtain ⟨lost, whole, periods⟩ := front overlaps (by decide)
            exact ⟨lost, whole, fun c member => List.mem_singleton.mp (periods c member)⟩
        · refine splitAtSeparators_cons
            (exact' (mergeParts_blank (by decide) (by decide) text)) fun _ => ?_
          refine exact' ⟨hardSplit_short text, ?_⟩
          exact hardSplit_overlapping text .nil (.all _ _ _)

/--
For every text, every positive limit and every overlap ratio in range: the chunks have at
most the limit's letters, each begins with an end of the chunk before of at most the
overlap, and behind these overlaps they hold the letters of the text in order, but for
periods of `". "` in a text of one line.
-/
theorem recursiveChunk_covers (text : Text) {maxTokens : Int} (positive : 1 ≤ maxTokens)
    {overlapRatio : OverlapRatio} (valid : overlapRatio.inRange = true) :
    ∃ limits chunks, limits.maxChars = charsOf maxTokens.toNat ∧
      limits.overlapChars = overlapRatio.chars (charsOf maxTokens.toNat) ∧
      recursiveChunk text maxTokens overlapRatio = .ok chunks ∧ Covered limits text chunks := by
  have tokens : 0 < maxTokens.toNat := by omega
  refine ⟨limitsOf maxTokens.toNat tokens overlapRatio valid, _, rfl, rfl, ?_,
    chunksWithin_covered _ text⟩
  rw [recursiveChunk, dif_pos tokens, dif_pos valid]

theorem recursiveChunk_covers_words :
    ∃ limits chunks, limits.maxChars = charsOf (2 : Int).toNat ∧
      limits.overlapChars = OverlapRatio.tenth.chars (charsOf (2 : Int).toNat) ∧
      recursiveChunk "one two three".toList 2 .tenth = .ok chunks ∧
        Covered limits "one two three".toList chunks :=
  recursiveChunk_covers "one two three".toList (by decide) rfl

/-- Without an overlap the period at a cut is lost. -/
theorem period_lost : ¬ ∀ (text : Text) (maxTokens : Int) (overlapRatio : OverlapRatio),
    strip text ≠ [] → 1 ≤ maxTokens → overlapRatio.inRange = true →
      ∃ chunks, recursiveChunk text maxTokens overlapRatio = .ok chunks ∧
        (∀ chunk ∈ chunks, chunk ≠ [] ∧ chunk.length ≤ charsOf maxTokens.toNat) ∧
          Overlapping (overlapRatio.chars (charsOf maxTokens.toNat)) chunks (visible text) := by
  intro claimed
  obtain ⟨chunks, ran, -, overlapping⟩ :=
    claimed "ab. cd".toList 1 .tenth (by decide) (by decide) rfl
  have cut : recursiveChunk "ab. cd".toList 1 .tenth = .ok ["ab".toList, "cd".toList] := by
    decide
  rw [cut] at ran
  cases ran
  exact absurd overlapping.sublist (by decide)

end BobbyBotique.Documents
