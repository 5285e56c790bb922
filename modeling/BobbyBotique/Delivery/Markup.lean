import BobbyBotique.Delivery.Markdown

/-!
# The pieces of a formatted text

A formatted text is made of plain characters, entities of escaped characters
and tags of the formatter.  The letters of the marks stand in no entity and in
no inline tag, so no pattern cuts a piece in two.
-/

namespace BobbyBotique.Delivery

/-- A piece of formatted text. -/
inductive Piece where
  | char (c : Char)
  | entity (c : Char)
  | tag (text : List Char)

namespace Piece

def text : Piece → List Char
  | .char c => [c]
  | .entity c => escapeChar c
  | .tag text => text

/-- The piece without its markup: a tag is dropped, an entity is read. -/
def decoded : Piece → List Char
  | .char c => [c]
  | .entity c => [c]
  | .tag _ => []

/-- The piece is written by the formatter for an allowed character, or it is one of the tags. -/
def Sound (allowed : Char → Prop) (tags : List Char → Prop) : Piece → Prop
  | .char c => entity? c = none ∧ allowed c
  | .entity c => (entity? c).isSome = true ∧ allowed c
  | .tag text => tags text

end Piece

/-- The text of a sound piece. -/
def Rendered (allowed : Char → Prop) (tags : List Char → Prop) (text : List Char) : Prop :=
  ∃ piece : Piece, piece.Sound allowed tags ∧ piece.text = text

/-! ## The tags -/

/-- The tags without attributes that are written inside a text. -/
def inlineTags : List (List Char) :=
  ["<code>", "</code>", "<b>", "</b>", "<i>", "</i>", "<s>", "</s>", "<blockquote>",
    "</blockquote>"].map String.toList

def InlineTag (text : List Char) : Prop := text ∈ inlineTags

theorem inlineTag_nil : ¬ InlineTag [] := by
  unfold InlineTag
  decide +kernel

def NoTag (_ : List Char) : Prop := False

/--
The tags of the formatter.  The address of an anchor is formatted text: it may
hold inline tags of the formatter, but no quote that ends the attribute.
-/
inductive FormatterTag (allowed : Char → Prop) : List Char → Prop where
  | inline {text : List Char} (listed : text ∈ inlineTags) : FormatterTag allowed text
  | pre : FormatterTag allowed "<pre>".toList
  | endPre : FormatterTag allowed "</pre>".toList
  | code (name : List Char) (plain : ∀ c ∈ name, entity? c = none) :
      FormatterTag allowed ("<code class=\"language-".toList ++ name ++ "\">".toList)
  | anchor (url : List Char) (written : Composed (Rendered allowed InlineTag) url)
      (quoted : '"' ∉ url) : FormatterTag allowed ("<a href=\"".toList ++ url ++ "\">".toList)
  | endAnchor : FormatterTag allowed "</a>".toList

def entities : List (List Char) :=
  ["&amp;", "&lt;", "&gt;", "&quot;", "&#x27;"].map String.toList

theorem entity?_mem {c : Char} {text : List Char} (found : entity? c = some text) :
    text ∈ entities := by
  unfold entity? at found
  split at found <;> first | (cases found; decide) | cases found

/-- The characters that are escaped. -/
def special : List Char := ['&', '<', '>', '"', '\'']

theorem mem_special_of_entity? {c : Char} (found : (entity? c).isSome = true) : c ∈ special := by
  unfold entity? at found
  split at found <;> first | decide | cases found

variable {allowed : Char → Prop} {tags wider : List Char → Prop} {text : List Char} {c : Char}

theorem Rendered.mono (implies : ∀ text, tags text → wider text)
    (rendered : Rendered allowed tags text) : Rendered allowed wider text := by
  obtain ⟨piece, sound, same⟩ := rendered
  refine ⟨piece, ?_, same⟩
  cases piece with
  | char | entity => exact sound
  | tag text => exact implies text sound

theorem Rendered.char (plain : entity? c = none) (known : allowed c) :
    Rendered allowed tags [c] :=
  ⟨.char c, ⟨plain, known⟩, rfl⟩

theorem Rendered.tag (written : tags text) : Rendered allowed tags text :=
  ⟨.tag text, written, rfl⟩

/-- A letter that stands in no entity and in no tag stands alone. -/
theorem alone_of_absent (entity : ∀ text ∈ entities, c ∉ text)
    (tag : ∀ text, tags text → c ∉ text) :
    Alone (Rendered allowed tags) c := by
  rintro text ⟨piece, sound, rfl⟩ member
  cases piece with
  | char other =>
    rw [List.mem_singleton.mp member]
    rfl
  | entity other =>
    obtain ⟨written, found⟩ := Option.isSome_iff_exists.mp sound.1
    have same : escapeChar other = written := by rw [escapeChar, found, Option.getD_some]
    rw [Piece.text, same] at member
    exact absurd member (entity written (entity?_mem found))
  | tag written => exact absurd member (tag written sound)

/-- The letters of the marks and of the line breaks. -/
def marks : List Char := ['`', '*', '_', '~', '[', ']', '(', ')', '\n']

theorem alone_mark (member : c ∈ marks) : Alone (Rendered allowed InlineTag) c := by
  have entity : ∀ c ∈ marks, ∀ text ∈ entities, c ∉ text :=
    forall_mem_of_all (by decide +kernel)
  have tag : ∀ c ∈ marks, ∀ text ∈ inlineTags, c ∉ text :=
    forall_mem_of_all (by decide +kernel)
  exact alone_of_absent (entity c member) (tag c member)

theorem alone_newline : Alone (Rendered allowed NoTag) '\n' :=
  alone_of_absent (by decide +kernel) fun _ impossible => impossible.elim

/-- Blanks stand in no entity. -/
theorem alone_blank (blank : isSpace c = true) : Alone (Rendered allowed NoTag) c := by
  have solid : ∀ text ∈ entities, (text.all fun other => !isSpace other) = true := by
    decide +kernel
  refine alone_of_absent (fun text listed member => ?_) fun _ impossible => impossible.elim
  have letter := List.all_eq_true.mp (solid text listed) c member
  rw [blank] at letter
  cases letter

theorem rendered_ne_nil (solid : ¬ tags []) (rendered : Rendered allowed tags text) :
    text ≠ [] := by
  obtain ⟨piece, sound, rfl⟩ := rendered
  cases piece with
  | char c => exact List.cons_ne_nil _ _
  | entity c =>
    obtain ⟨written, found⟩ := Option.isSome_iff_exists.mp sound.1
    have long : ∀ text ∈ entities, text ≠ [] := by decide +kernel
    have same : escapeChar c = written := by rw [escapeChar, found, Option.getD_some]
    rw [Piece.text, same]
    exact long written (entity?_mem found)
  | tag written =>
    rintro rfl
    exact solid sound

/-- Formatted text without attributes holds no quote. -/
theorem not_mem_quote (composed : Composed (Rendered allowed InlineTag) text) : '"' ∉ text := by
  have entity : ∀ text ∈ entities, '"' ∉ text := by decide +kernel
  have tag : ∀ text ∈ inlineTags, '"' ∉ text := by decide +kernel
  induction composed with
  | nil => exact List.not_mem_nil
  | cons whole _ ih =>
    intro member
    rcases List.mem_append.mp member with inside | later
    · obtain ⟨piece, sound, rfl⟩ := whole
      cases piece with
      | char c =>
        have same := List.mem_singleton.mp inside
        subst same
        cases sound.1
      | entity c =>
        obtain ⟨written, found⟩ := Option.isSome_iff_exists.mp sound.1
        have same : escapeChar c = written := by rw [escapeChar, found, Option.getD_some]
        rw [Piece.text, same] at inside
        exact entity written (entity?_mem found) inside
      | tag written => exact tag written sound inside
    · exact ih later

/-- Escaped text is made of plain characters and entities. -/
theorem composed_escape (known : ∀ c ∈ text, allowed c) :
    Composed (Rendered allowed tags) (escape text) := by
  induction text with
  | nil => exact .nil
  | cons c rest ih =>
    refine .cons ?_ (ih fun other member => known other (List.mem_cons_of_mem _ member))
    cases found : entity? c with
    | none =>
      rw [escapeChar, found]
      exact .char found (known c List.mem_cons_self)
    | some written =>
      exact ⟨.entity c, ⟨by rw [found]; rfl, known c List.mem_cons_self⟩, rfl⟩

/-! ## The patterns -/

theorem shortest_spec {body : Char → Bool} {ends : Char → List Char → Bool} {group : List Char}
    (found : shortest body ends text = some group) :
    ∃ last rest, text = group ++ rest ∧ ends last rest = true := by
  induction text generalizing group with
  | nil => cases found
  | cons c rest ih =>
    rw [shortest] at found
    split at found
    · cases found
    · split at found
      · next ended =>
          cases found
          exact ⟨c, rest, rfl, ended⟩
      · obtain ⟨tail, shorter, rfl⟩ := Option.map_eq_some_iff.mp found
        obtain ⟨last, behind, same, ended⟩ := ih shorter
        exact ⟨last, behind, congrArg (c :: ·) same, ended⟩

/-- A match is the mark, the group and the mark. -/
theorem Enclosure.group_spec {pattern : Enclosure} {before : Option Char} {group : List Char}
    (found : pattern.group before text = some group) :
    ∃ rest, text = pattern.mark ++ (group ++ (pattern.mark ++ rest)) := by
  unfold Enclosure.group at found
  split at found
  · next opened =>
      obtain ⟨opening, _⟩ := Bool.and_eq_true_iff.mp opened
      obtain ⟨inner, rfl⟩ := List.isPrefixOf_iff_prefix.mp opening
      rw [List.drop_left] at found
      obtain ⟨last, closing, rfl, ended⟩ := shortest_spec found
      obtain ⟨closed, _⟩ := Bool.and_eq_true_iff.mp ended
      obtain ⟨rest, rfl⟩ := List.isPrefixOf_iff_prefix.mp closed
      exact ⟨rest, rfl⟩
  · cases found

/-- A pattern whose mark stands alone keeps formatted text formatted. -/
theorem Enclosure.rewrites {pattern : Enclosure} {tag : List Char}
    (marked : ∀ c ∈ pattern.mark, c ∈ marks) (nonempty : pattern.mark ≠ [])
    (opening : ('<' :: (tag ++ ['>'])) ∈ inlineTags)
    (closing : ('<' :: '/' :: (tag ++ ['>'])) ∈ inlineTags) (keeps : List Char → Bool) :
    Rewrites (Rendered allowed InlineTag) (Rendered allowed InlineTag)
      (pattern.tagged tag keeps) where
  solid := fun _ => rendered_ne_nil inlineTag_nil
  starts := by
    intro before letter rest found match'
    unfold Enclosure.tagged at match'
    obtain ⟨group, grouped, _⟩ := Option.map_eq_some_iff.mp match'
    obtain ⟨behind, same⟩ := Enclosure.group_spec grouped
    cases shape : pattern.mark with
    | nil => exact absurd shape nonempty
    | cons first others =>
      rw [shape] at same marked
      obtain ⟨rfl, _⟩ := List.cons.inj same
      exact alone_mark (marked letter List.mem_cons_self)
  composes := by
    intro before word length replacement match' composed
    unfold Enclosure.tagged at match'
    obtain ⟨group, grouped, same⟩ := Option.map_eq_some_iff.mp match'
    obtain ⟨rest, rfl⟩ := Enclosure.group_spec grouped
    have alone : ∀ c ∈ pattern.mark, Alone (Rendered allowed InlineTag) c :=
      fun c member => alone_mark (marked c member)
    have unmarked := composed.behind alone
    obtain ⟨lengths, written⟩ := Prod.mk.inj same
    have dropped : (pattern.mark ++ (group ++ (pattern.mark ++ rest))).drop
        (pattern.mark ++ group ++ pattern.mark).length = rest := by
      have whole : pattern.mark ++ (group ++ (pattern.mark ++ rest)) =
          (pattern.mark ++ group ++ pattern.mark) ++ rest := by
        simp only [List.append_assoc]
      rw [whole, List.drop_left]
    rw [← lengths, dropped]
    cases shape : pattern.mark with
    | nil => exact absurd shape nonempty
    | cons first others =>
      rw [shape] at unmarked alone
      obtain ⟨inner, _, outer⟩ := unmarked.split (alone first List.mem_cons_self)
      have left := Composed.behind
        (fun c member => alone c (List.mem_cons_of_mem _ member)) outer
      refine ⟨?_, ?_, left⟩
      · simp
      · rw [← written]
        split
        · -- The match itself is the front of the text.
          have letters : ∀ c ∈ pattern.mark, Rendered allowed InlineTag [c] := by
            intro c member
            obtain ⟨front, back, split⟩ := List.append_of_mem member
            rw [split, List.append_assoc] at composed
            exact (composed.split (alone_mark (marked c member))).2.1
          exact ((Composed.letters letters).append inner).append (Composed.letters letters)
        · exact ((Composed.single (.tag opening)).append inner).append
            (Composed.single (.tag closing))

theorem dropWhile_cons {A : Type} {holds : A → Bool} {word rest : List A} {letter : A}
    (dropped : word.dropWhile holds = letter :: rest) :
    word = word.takeWhile holds ++ letter :: rest ∧ holds letter = false := by
  constructor
  · rw [← dropped, List.takeWhile_append_dropWhile]
  · have head := List.head?_dropWhile_not holds word
    rw [dropped] at head
    simpa using head

/-- The parts of a link. -/
theorem link_spec {before : Option Char} {length : Nat} {replacement : List Char}
    (found : link before text = some (length, replacement)) :
    ∃ label url rest, text = '[' :: (label ++ ']' :: '(' :: (url ++ ')' :: rest)) ∧
      length = label.length + url.length + 4 ∧
      replacement = ("<a href=\"".toList ++ url ++ "\">".toList) ++ label ++ "</a>".toList := by
  unfold link at found
  split at found
  · next before rest =>
      dsimp only at found
      split at found
      · next behind shape =>
          split at found
          · next parts =>
              obtain ⟨front, _⟩ := dropWhile_cons shape
              cases closed : behind.dropWhile (· ≠ ')') with
              | nil => exact absurd closed parts.2.2
              | cons c after =>
                obtain ⟨back, ended⟩ := dropWhile_cons closed
                have close : c = ')' := by simpa using ended
                cases found
                subst close
                refine ⟨_, _, after, ?_, rfl, rfl⟩
                rw [← back, ← front]
          · cases found
      · cases found
  · cases found

/-- Links turn formatted text into formatted text with anchors. -/
theorem link_rewrites :
    Rewrites (Rendered allowed InlineTag) (Rendered allowed (FormatterTag allowed)) link where
  solid := fun _ => rendered_ne_nil inlineTag_nil
  starts := by
    rintro before letter rest ⟨length, replacement⟩ found
    obtain ⟨label, url, behind, same, _⟩ := link_spec found
    obtain ⟨rfl, _⟩ := List.cons.inj same
    exact alone_mark (by decide)
  composes := by
    intro before word length replacement found composed
    obtain ⟨label, url, rest, rfl, rfl, rfl⟩ := link_spec found
    have alone : ∀ c ∈ marks, Alone (Rendered allowed InlineTag) c := fun c => alone_mark
    obtain ⟨_, _, inner⟩ := @Composed.split _ _ [] _ _ (alone '[' (by decide)) composed
    obtain ⟨shown, _, behind⟩ := inner.split (alone ']' (by decide))
    obtain ⟨_, _, address⟩ := @Composed.split _ _ [] _ _ (alone '(' (by decide)) behind
    obtain ⟨url', _, left⟩ := address.split (alone ')' (by decide))
    have inline : ∀ piece, Rendered allowed InlineTag piece →
        Rendered allowed (FormatterTag allowed) piece :=
      fun piece => Rendered.mono fun _ listed => .inline listed
    refine ⟨by omega, ?_, ?_⟩
    · exact ((Composed.single (.tag (.anchor url url' (not_mem_quote url')))).append
        (shown.mono inline)).append (.single (.tag .endAnchor))
    · have whole : '[' :: (label ++ ']' :: '(' :: (url ++ ')' :: rest)) =
          ('[' :: (label ++ ']' :: '(' :: (url ++ [')']))) ++ rest := by
        simp
      rw [whole, List.drop_left' (by simp; omega)]
      exact left

/-! ## Lines -/

theorem splitLines_cases (text : List Char) :
    splitLines text = [text] ∨ ∃ first rest, text = first ++ '\n' :: rest ∧
      splitLines text = first :: splitLines rest := by
  induction text with
  | nil => exact .inl rfl
  | cons c rest ih =>
    rw [splitLines]
    split
    · next newline => exact .inr ⟨[], rest, by rw [newline, List.nil_append], rfl⟩
    · rcases ih with whole | ⟨first, behind, same, lines⟩
      · exact .inl (by rw [whole, consHead])
      · exact .inr ⟨c :: first, behind, congrArg (c :: ·) same, by rw [lines, consHead]⟩

/-- A line break cuts escaped text into escaped lines. -/
theorem composed_splitLines (composed : Composed (Rendered allowed NoTag) text) :
    ∀ line ∈ splitLines text, Composed (Rendered allowed NoTag) line := by
  generalize size : text.length = bound
  induction bound using Nat.strongRecOn generalizing text with
  | ind bound ih =>
    subst size
    intro line member
    rcases splitLines_cases text with whole | ⟨first, rest, same, lines⟩
    · rw [whole] at member
      rwa [List.mem_singleton.mp member]
    · rw [lines] at member
      rw [same] at composed
      obtain ⟨front, _, back⟩ := composed.split alone_newline
      rcases List.mem_cons.mp member with rfl | later
      · exact front
      · refine ih rest.length ?_ back rfl line later
        rw [same, List.length_append, List.length_cons]
        omega

theorem composed_joinLines {unit : List Char → Prop} (newline : unit ['\n'])
    {lines : List (List Char)} (all : ∀ line ∈ lines, Composed unit line) :
    Composed unit (joinLines lines) := by
  induction lines with
  | nil => exact .nil
  | cons line rest ih =>
    have first := all line List.mem_cons_self
    have others := ih fun other member => all other (List.mem_cons_of_mem _ member)
    cases rest with
    | nil => exact first
    | cons second rest => exact first.append (.cons newline others)

theorem lstrip_spec (text : List Char) :
    ∃ blanks, text = blanks ++ lstrip text ∧ ∀ c ∈ blanks, isSpace c = true :=
  ⟨text.takeWhile isSpace, List.takeWhile_append_dropWhile.symm,
    fun _ member => List.mem_takeWhile_imp member⟩

theorem composed_lstrip (composed : Composed (Rendered allowed NoTag) text) :
    Composed (Rendered allowed NoTag) (lstrip text) := by
  obtain ⟨blanks, same, all⟩ := lstrip_spec text
  rw [same] at composed
  exact composed.behind fun c member => alone_blank (all c member)

theorem composed_strip (composed : Composed (Rendered allowed NoTag) text) :
    Composed (Rendered allowed NoTag) (strip text) := by
  have stripped := composed_lstrip composed
  obtain ⟨blanks, same, all⟩ := lstrip_spec (lstrip text).reverse
  have parts : lstrip text = strip text ++ blanks.reverse := by
    rw [strip, ← List.reverse_append, ← same, List.reverse_reverse]
  rw [parts] at stripped
  exact stripped.before fun c member => alone_blank (all c (List.mem_reverse.mp member))

/-- A blank in front makes no difference to a stripped text. -/
theorem strip_cons {blank : Char} (space : isSpace blank = true) (rest : List Char) :
    strip (blank :: rest) = strip rest := by
  have same : lstrip (blank :: rest) = lstrip rest := by
    rw [lstrip, List.dropWhile_cons, if_pos space]
    rfl
  rw [strip, same, strip]

theorem composed_heading? {line heading : List Char} (found : heading? line = some heading)
    (composed : Composed (Rendered allowed NoTag) line) :
    Composed (Rendered allowed NoTag) heading := by
  unfold heading? at found
  dsimp only at found
  split at found
  · next parts =>
      cases found
      have hashes := List.takeWhile_append_dropWhile (p := (· = '#')) (l := line)
      generalize line.takeWhile (· = '#') = front at hashes parts
      generalize line.dropWhile (· = '#') = rest at hashes parts ⊢
      cases rest with
      | nil => exact absurd rfl parts.2.2.1
      | cons blank behind =>
        have space : isSpace blank = true := by
          by_contra solid
          refine parts.2.2.1 ?_
          rw [List.takeWhile_cons, if_neg solid]
        rw [← hashes] at composed
        rw [strip_cons space]
        exact composed_strip (composed.split (alone_blank space)).2.2
  · cases found

theorem composed_quoted? {stripped content : List Char} (found : quoted? stripped = some content)
    (composed : Composed (Rendered allowed NoTag) stripped) :
    Composed (Rendered allowed NoTag) content := by
  unfold quoted? at found
  split at found
  · next marked =>
      obtain ⟨rest, rfl⟩ := List.isPrefixOf_iff_prefix.mp marked
      cases found
      have parts : "&gt; ".toList ++ rest = "&gt;".toList ++ ' ' :: rest := rfl
      rw [parts] at composed
      exact (composed.split (alone_blank (by decide))).2.2
  · split at found
    · cases found
      exact .nil
    · cases found

/-- The line breaks and the rules that the formatter writes itself are allowed. -/
structure Writes (allowed : Char → Prop) : Prop where
  newline : allowed '\n'
  rule : allowed '━'

theorem Rendered.inline (rendered : Rendered allowed NoTag text) :
    Rendered allowed InlineTag text :=
  rendered.mono fun _ impossible => impossible.elim

theorem composed_flush (writes : Writes allowed) {lines buffer : List (List Char)}
    (processed : ∀ line ∈ lines, Composed (Rendered allowed InlineTag) line)
    (waiting : ∀ line ∈ buffer, Composed (Rendered allowed InlineTag) line) :
    ∀ line ∈ flush lines buffer, Composed (Rendered allowed InlineTag) line := by
  unfold flush
  split
  · exact processed
  · intro line member
    rcases List.mem_append.mp member with earlier | last
    · exact processed line earlier
    · rw [List.mem_singleton.mp last]
      have opening : InlineTag "<blockquote>".toList := by
        unfold InlineTag
        decide +kernel
      have closing : InlineTag "</blockquote>".toList := by
        unfold InlineTag
        decide +kernel
      exact ((Composed.single (.tag opening)).append
        (composed_joinLines (.char rfl writes.newline) waiting)).append (.single (.tag closing))

theorem composed_blockLine (writes : Writes allowed) {state : List (List Char) × List (List Char)}
    {line : List Char}
    (processed : ∀ line ∈ state.1, Composed (Rendered allowed InlineTag) line)
    (waiting : ∀ line ∈ state.2, Composed (Rendered allowed InlineTag) line)
    (composed : Composed (Rendered allowed NoTag) line) :
    (∀ each ∈ (blockLine state line).1, Composed (Rendered allowed InlineTag) each) ∧
      ∀ each ∈ (blockLine state line).2, Composed (Rendered allowed InlineTag) each := by
  have stripped := composed_lstrip composed
  have flushed := composed_flush writes processed waiting
  have extended : ∀ added : List Char, Composed (Rendered allowed InlineTag) added →
      (∀ line ∈ flush state.1 state.2 ++ [added], Composed (Rendered allowed InlineTag) line) ∧
        ∀ line ∈ ([] : List (List Char)), Composed (Rendered allowed InlineTag) line := by
    refine fun added whole => ⟨fun each member => ?_, by simp⟩
    rcases List.mem_append.mp member with earlier | last
    · exact flushed each earlier
    · rwa [List.mem_singleton.mp last]
  unfold blockLine
  dsimp only
  split
  · next content found =>
      refine ⟨processed, fun each member => ?_⟩
      rcases List.mem_append.mp member with earlier | last
      · exact waiting each earlier
      · rw [List.mem_singleton.mp last]
        exact (composed_quoted? found stripped).mono fun _ => Rendered.inline
  · split
    · next heading found =>
        have opening : InlineTag "<b>".toList := by
          unfold InlineTag
          decide +kernel
        have closing : InlineTag "</b>".toList := by
          unfold InlineTag
          decide +kernel
        have broken : Composed (Rendered allowed InlineTag) "\n".toList :=
          .single (.char rfl writes.newline)
        exact extended _ (((broken.append (.single (.tag opening))).append
          ((composed_heading? found stripped).mono fun _ => Rendered.inline)).append
            (.single (.tag closing)))
    · split
      · refine extended _ (Composed.letters fun c member => ?_)
        rw [(List.mem_replicate.mp member).2]
        exact .char rfl writes.rule
      · exact extended _ (composed.mono fun _ => Rendered.inline)

theorem composed_formatLines (writes : Writes allowed)
    (composed : Composed (Rendered allowed NoTag) text) :
    Composed (Rendered allowed InlineTag) (formatLines text) := by
  have folded : ∀ (lines : List (List Char)) (state : List (List Char) × List (List Char)),
      (∀ line ∈ lines, Composed (Rendered allowed NoTag) line) →
      (∀ line ∈ state.1, Composed (Rendered allowed InlineTag) line) →
      (∀ line ∈ state.2, Composed (Rendered allowed InlineTag) line) →
      (∀ line ∈ (lines.foldl blockLine state).1, Composed (Rendered allowed InlineTag) line) ∧
        ∀ line ∈ (lines.foldl blockLine state).2,
          Composed (Rendered allowed InlineTag) line := by
    intro lines
    induction lines with
    | nil => exact fun _ _ processed waiting => ⟨processed, waiting⟩
    | cons line rest ih =>
      intro state all processed waiting
      obtain ⟨further, left⟩ := composed_blockLine writes processed waiting
        (all line List.mem_cons_self)
      exact ih _ (fun other member => all other (List.mem_cons_of_mem _ member)) further left
  obtain ⟨processed, waiting⟩ := folded (splitLines text) ([], []) (composed_splitLines composed)
    (by simp) (by simp)
  exact composed_joinLines (.char rfl writes.newline) (composed_flush writes processed waiting)

/-! ## Segments -/

variable (python : Interpreter)

theorem composed_formatInline (composed : Composed (Rendered allowed InlineTag) text) :
    Composed (Rendered allowed (FormatterTag allowed)) (formatInline python text) := by
  have step : ∀ (pattern : Enclosure) (tag : List Char) (keeps : List Char → Bool)
      {text : List Char},
      (∀ c ∈ pattern.mark, c ∈ marks) → pattern.mark ≠ [] →
      ('<' :: (tag ++ ['>'])) ∈ inlineTags → ('<' :: '/' :: (tag ++ ['>'])) ∈ inlineTags →
      Composed (Rendered allowed InlineTag) text →
      Composed (Rendered allowed InlineTag) (resub (pattern.tagged tag keeps) 0 none text) :=
    fun pattern tag keeps text marked nonempty opening closing composed =>
      composed.resub (Enclosure.rewrites marked nonempty opening closing keeps)
        (fun _ whole => whole) none
  unfold formatInline
  refine Composed.resub link_rewrites (fun piece => Rendered.mono fun _ listed => .inline listed)
    ?_ none
  refine step strikethrough _ _ (forall_mem_of_all (by decide)) (by decide) (by decide +kernel)
    (by decide +kernel) ?_
  refine step (italicSingleUnder python) _ _ ?_ (List.cons_ne_nil _ _) (by decide +kernel)
    (by decide +kernel) ?_
  · intro c member
    rw [List.mem_singleton.mp member]
    decide
  refine step italicStar _ _ (forall_mem_of_all (by decide)) (by decide) (by decide +kernel)
    (by decide +kernel) ?_
  refine step (italicUnder python) _ _ ?_ (List.cons_ne_nil _ _) (by decide +kernel)
    (by decide +kernel) ?_
  · intro c member
    have same : c = '_' := by simpa [italicUnder] using member
    rw [same]
    decide
  refine step bold _ _ (forall_mem_of_all (by decide)) (by decide) (by decide +kernel)
    (by decide +kernel) ?_
  exact step inlineCode _ _ (forall_mem_of_all (by decide)) (by decide) (by decide +kernel)
    (by decide +kernel) composed

/-- The name of a language holds no character that is escaped. -/
theorem language_plain {line name : List Char} (found : language python line = some name) :
    ∀ c ∈ name, entity? c = none := by
  unfold language at found
  dsimp only at found
  split at found
  · next named =>
      cases found
      intro c member
      have valid := List.all_eq_true.mp named.2.2 c member
      by_contra escaped
      have listed := mem_special_of_entity? (Option.isSome_iff_ne_none.mpr escaped)
      have low : ∀ c ∈ special, c.toNat < 128 ∧ c.isAlphanum = false ∧
          "+-#.".toList.contains c = false :=
        forall_mem_of_all (by decide +kernel)
      obtain ⟨small, letter, sign⟩ := low c listed
      rw [python.ascii c small, letter, sign] at valid
      cases valid
  · cases found

theorem composed_codeBlock (known : ∀ c ∈ text, allowed c) :
    Composed (Rendered allowed (FormatterTag allowed)) (codeBlock python text) := by
  have kept : ∀ content : List Char, (∀ c ∈ content, c ∈ text) →
      Composed (Rendered allowed (FormatterTag allowed)) (escape (strip content)) := by
    intro content inside
    refine composed_escape fun c member => known c (inside c ?_)
    have front := List.dropWhile_subset isSpace (List.mem_reverse.mp member)
    exact List.dropWhile_subset isSpace (List.mem_reverse.mp front)
  have inner : ∀ c ∈ (text.drop 3).take (text.length - 6), c ∈ text :=
    fun c member => List.mem_of_mem_drop (List.mem_of_mem_take member)
  unfold codeBlock
  dsimp only
  generalize (text.drop 3).take (text.length - 6) = content at inner ⊢
  have plain : ∀ name, (if content.contains '\n' then
      language python (content.takeWhile (· ≠ '\n')) else none) = some name →
      ∀ c ∈ name, entity? c = none := by
    intro name found
    split at found
    · exact language_plain python found
    · cases found
  generalize (if content.contains '\n' then
    language python (content.takeWhile (· ≠ '\n')) else none) = named at plain ⊢
  have body : ∀ c ∈ (if named.isSome then (content.dropWhile (· ≠ '\n')).drop 1 else content),
      c ∈ text := by
    intro c member
    cases named with
    | some name => exact inner c (List.dropWhile_subset _ (List.mem_of_mem_drop member))
    | none => exact inner c member
  have escaped := kept _ body
  generalize escape (strip (if named.isSome then (content.dropWhile (· ≠ '\n')).drop 1
    else content)) = written at escaped ⊢
  split
  · exact .nil
  · cases named with
    | some name =>
      exact ((((Composed.single (.tag .pre)).append
        (.single (.tag (.code name (plain name rfl))))).append escaped).append
          (.single (.tag (.inline (by decide +kernel))))).append (.single (.tag .endPre))
    | none =>
      exact ((Composed.single (.tag .pre)).append escaped).append (.single (.tag .endPre))

/-- Every character of a segment stands in the text. -/
theorem mem_of_mem_segments (left : Nat) (text : List Char) :
    ∀ segment ∈ segments left text, ∀ c ∈ segment, c ∈ text := by
  have headed : ∀ (c : Char) (rest : List Char) (words : List (List Char)),
      (∀ word ∈ words, ∀ each ∈ word, each ∈ rest) →
      ∀ word ∈ consHead c words, ∀ each ∈ word, each ∈ c :: rest := by
    intro c rest words inside word member each letter
    cases words with
    | nil =>
      rw [List.mem_singleton.mp member] at letter
      rw [List.mem_singleton.mp letter]
      exact List.mem_cons_self
    | cons first others =>
      rcases List.mem_cons.mp member with rfl | later
      · rcases List.mem_cons.mp letter with rfl | letter
        · exact List.mem_cons_self
        · exact List.mem_cons_of_mem _ (inside first List.mem_cons_self each letter)
      · exact List.mem_cons_of_mem _
          (inside word (List.mem_cons_of_mem _ later) each letter)
  have opened : ∀ (rest : List Char) (words : List (List Char)),
      (∀ word ∈ words, ∀ each ∈ word, each ∈ rest) →
      ∀ word ∈ [] :: words, ∀ each ∈ word, each ∈ rest := by
    intro rest words inside word member each letter
    rcases List.mem_cons.mp member with rfl | later
    · cases letter
    · exact inside word later each letter
  induction text generalizing left with
  | nil =>
    intro segment member c letter
    have empty : segment = [] := by
      cases left <;> simpa [segments] using member
    rw [empty] at letter
    cases letter
  | cons c rest ih =>
    cases left with
    | succ left =>
      rw [segments]
      split
      · exact headed c rest _ (opened rest _ (ih 0))
      · exact headed c rest _ (ih left)
    | zero =>
      rw [segments]
      split
      · exact opened (c :: rest) _ (headed c rest _ (ih _))
      · exact headed c rest _ (ih 0)

theorem composed_formatSegment (writes : Writes allowed) (known : ∀ c ∈ text, allowed c) :
    Composed (Rendered allowed (FormatterTag allowed)) (formatSegment python text) := by
  unfold formatSegment
  split
  · exact composed_codeBlock python known
  · refine composed_formatInline python (composed_formatLines writes (composed_escape ?_))
    intro c member
    refine known c (mem_of_mem_resub ?_ 0 none text c member)
    intro before word length replacement found letter written
    unfold escapeCleanup at found
    split at found
    · split at found
      · cases found
        rw [List.mem_singleton.mp written]
        simp
      · cases found
    · cases found

/-! ## The whole text -/

/-- The character is one of the text, or the formatter writes it itself. -/
def Known (text : List Char) (c : Char) : Prop := c ∈ text ∨ c = '\n' ∨ c = '━'

/--
The formatted text is made of pieces: tags of the formatter, entities and plain
characters, none of which is escaped.  Without its markup it holds characters
of the source only, but for line breaks and the glyphs of a rule.
-/
theorem no_markup_injected (text : List Char) :
    ∃ pieces : List Piece, pieces.flatMap Piece.text = markdownToHtml python text ∧
      (∀ piece ∈ pieces, piece.Sound (Known text) (FormatterTag (Known text))) ∧
      ∀ c ∈ pieces.flatMap Piece.decoded, c ∈ text ∨ c = '\n' ∨ c = '━' := by
  have composed : Composed (Rendered (Known text) (FormatterTag (Known text)))
      (markdownToHtml python text) := by
    unfold markdownToHtml
    split
    · exact .nil
    · rw [List.flatMap_def]
      refine Composed.flatten fun word member => ?_
      obtain ⟨segment, listed, rfl⟩ := List.mem_map.mp member
      exact composed_formatSegment python ⟨.inr (.inl rfl), .inr (.inr rfl)⟩
        fun c letter => .inl (mem_of_mem_segments 0 text segment listed c letter)
  generalize markdownToHtml python text = html at composed ⊢
  have pieces : ∃ pieces : List Piece, pieces.flatMap Piece.text = html ∧
      ∀ piece ∈ pieces, piece.Sound (Known text) (FormatterTag (Known text)) := by
    induction composed with
    | nil => exact ⟨[], rfl, by simp⟩
    | cons whole _ ih =>
      obtain ⟨piece, sound, rfl⟩ := whole
      obtain ⟨pieces, same, all⟩ := ih
      refine ⟨piece :: pieces, by rw [List.flatMap_cons, same], fun each member => ?_⟩
      rcases List.mem_cons.mp member with rfl | later
      · exact sound
      · exact all each later
  obtain ⟨pieces, same, all⟩ := pieces
  refine ⟨pieces, same, all, fun c member => ?_⟩
  obtain ⟨piece, listed, letter⟩ := List.mem_flatMap.mp member
  have sound := all piece listed
  cases piece with
  | char other =>
    rw [List.mem_singleton.mp letter]
    exact sound.2
  | entity other =>
    rw [List.mem_singleton.mp letter]
    exact sound.2
  | tag written => cases letter

end BobbyBotique.Delivery
