import BobbyBotique.Delivery.Markdown
import BobbyBotique.Delivery.Sanitize
import BobbyBotique.Foundation.Nesting
import Mathlib.Data.List.Forall2

/-!
# Chunks that can be delivered

A nested text is read as letters and tags.  A round that is not forced cuts it
between two of them, and so its chunks are nested and their letters keep the
tags around them.
-/

namespace BobbyBotique.Delivery

/-- What the regular expressions rely on: `\w` matches no letter that marks a tag. -/
structure WordChars.Plain (word : WordChars) : Prop where
  openAngle : word '<' = false
  closeAngle : word '>' = false
  slash : word '/' = false

namespace Tag

def role (tag : Tag) : Role :=
  if tag.name = "br".toList ∨ tag.name = "img".toList ∨ tag.name = "hr".toList then .stands
  else if tag.closing then .closes
  else .opens

/-- The tag that closes a tag. -/
def close (tag : Tag) : Tag := ⟨true, tag.name, "</".toList ++ tag.name ++ ">".toList⟩

/-- The tag is written as a tag, without an angle bracket inside. -/
structure Written (word : WordChars) (tag : Tag) : Prop where
  named : tag.name ≠ []
  letters : ∀ c ∈ tag.name, word c = true
  full : ∃ attributes : List Char, tag.full =
      '<' :: ((if tag.closing then ['/'] else []) ++ tag.name ++ attributes ++ ['>']) ∧
    (∀ c ∈ attributes, c ≠ '<' ∧ c ≠ '>') ∧ ∀ c, attributes.head? = some c → word c = false

end Tag

/-- The tags of HTML: a closing tag closes the tag of its name. -/
def htmlTags : Tags Tag := ⟨Tag.role, fun closing opening => opening.name = closing.name⟩

/-- A letter or a tag of a text. -/
abbrev Html := Token Char Tag

def tokenText : Html → List Char
  | .letter c => [c]
  | .tag tag => tag.full

/-- The text of a word of letters and tags. -/
def render (html : List Html) : List Char := html.flatMap tokenText

/-- The tags of the word. -/
def tagsOf : List Html → List Tag
  | [] => []
  | .letter _ :: rest => tagsOf rest
  | .tag tag :: rest => tag :: tagsOf rest

/-- The letter is no tag by itself, and the tag is one. -/
def TokenWritten (word : WordChars) : Html → Prop
  | .letter c => c ≠ '<'
  | .tag tag => tag.Written word

def Written (word : WordChars) (html : List Html) : Prop :=
  ∀ token ∈ html, TokenWritten word token

/-! ## Reading a written text -/

section Lexing

variable {word : WordChars} {tag : Tag} {html first second : List Html}

@[simp] theorem render_nil : render [] = [] := rfl

@[simp] theorem render_cons (token : Html) (html : List Html) :
    render (token :: html) = tokenText token ++ render html :=
  List.flatMap_cons

@[simp] theorem render_append : render (first ++ second) = render first ++ render second :=
  List.flatMap_append

theorem Written.append (before : Written word first) (behind : Written word second) :
    Written word (first ++ second) := by
  intro token member
  rcases List.mem_append.mp member with member | member
  · exact before token member
  · exact behind token member

theorem Written.of_append (written : Written word (first ++ second)) :
    Written word first ∧ Written word second :=
  ⟨fun token member => written token (List.mem_append_left _ member),
    fun token member => written token (List.mem_append_right _ member)⟩

theorem takeWhile_stops {A : Type} {holds : A → Bool} {front rest : List A}
    (all : ∀ each ∈ front, holds each = true)
    (stops : ∀ each, rest.head? = some each → holds each = false) :
    (front ++ rest).takeWhile holds = front ∧ (front ++ rest).dropWhile holds = rest := by
  rw [List.takeWhile_append_of_pos all, List.dropWhile_append_of_pos all]
  cases rest with
  | nil => simp
  | cons head tail => simp [stops head rfl]

/-- The match at a tag, from the parts of the tag. -/
theorem tagAt_parts (closing : Bool) {name attributes body rest : List Char} (named : name ≠ [])
    (slash : body.head? ≠ some '/') (front : body.takeWhile word = name)
    (behind : body.dropWhile word = attributes ++ '>' :: rest)
    (inside : ∀ c ∈ attributes, c ≠ '>') :
    tagAt word ('<' :: ((if closing then ['/'] else []) ++ body)) = some ⟨closing, name,
        '<' :: ((if closing then ['/'] else []) ++ name ++ attributes ++ ['>'])⟩ := by
  have stops := @takeWhile_stops Char (fun c => decide (c ≠ '>')) attributes ('>' :: rest)
    (fun c member => decide_eq_true (inside c member)) (by
      intro c head
      cases head
      rfl)
  have filled : name.isEmpty = false := by
    cases name with
    | nil => exact absurd rfl named
    | cons => rfl
  cases closing with
  | true =>
    simp only [tagAt, if_true, List.cons_append, List.nil_append, List.head?_cons,
      List.tail_cons, beq_self_eq_true, front, behind, stops.1, stops.2, filled,
      Bool.false_eq_true, if_false]
  | false =>
    have opening : (body.head? == some '/') = false := beq_false_of_ne slash
    simp only [tagAt, List.nil_append, opening, front, behind, stops.1, stops.2, filled,
      Bool.false_eq_true, if_false]

theorem tagAt_written (plain : word.Plain) (written : tag.Written word) (rest : List Char) :
    tagAt word (tag.full ++ rest) = some tag := by
  obtain ⟨attributes, full, inside, stops⟩ := written.full
  have parts := @takeWhile_stops Char word tag.name (attributes ++ '>' :: rest)
    written.letters (by
      intro c head
      cases attributes with
      | nil =>
        cases head
        exact plain.closeAngle
      | cons each others => exact stops c head)
  have slash : (tag.name ++ (attributes ++ '>' :: rest)).head? ≠ some '/' := by
    intro head
    cases same : tag.name with
    | nil => exact written.named same
    | cons c others =>
      rw [same] at head
      cases head
      have letter := written.letters '/' (by simp [same])
      rw [plain.slash] at letter
      cases letter
  have found := tagAt_parts tag.closing written.named slash parts.1 parts.2
    fun c member => (inside c member).2
  have same : tag.full ++ rest = '<' :: ((if tag.closing then ['/'] else []) ++
      (tag.name ++ (attributes ++ '>' :: rest))) := by
    rw [full]
    simp
  rw [same, found, ← full]

theorem findTags_skip (skipped rest : List Char) :
    findTags word skipped.length (skipped ++ rest) = findTags word 0 rest := by
  induction skipped with
  | nil => rfl
  | cons c others ih => exact ih

theorem findTags_tag (plain : word.Plain) (written : tag.Written word) (rest : List Char) :
    findTags word 0 (tag.full ++ rest) = tag :: findTags word 0 rest := by
  have found := tagAt_written plain written rest
  obtain ⟨attributes, full, _, _⟩ := written.full
  cases same : tag.full with
  | nil =>
    rw [full] at same
    cases same
  | cons c others =>
    rw [same, List.cons_append] at found
    rw [List.cons_append]
    rw [findTags, found]
    dsimp only
    rw [same, List.length_cons, Nat.add_sub_cancel, findTags_skip]

theorem tagAt_letter {c : Char} (plainLetter : c ≠ '<') (rest : List Char) :
    tagAt word (c :: rest) = none := by
  unfold tagAt
  split
  · next same =>
      cases same
      exact absurd rfl plainLetter
  · rfl

/-- The tags that are found in a written text are its tags. -/
theorem findTags_render (plain : word.Plain) (written : Written word html) :
    findTags word 0 (render html) = tagsOf html := by
  induction html with
  | nil => rfl
  | cons token rest ih =>
    obtain ⟨head, tail⟩ := List.forall_mem_cons.mp written
    rw [render_cons]
    cases token with
    | letter c =>
      have none : tagAt word (c :: render rest) = none := tagAt_letter head _
      change findTags word 0 (c :: render rest) = tagsOf rest
      rw [findTags, none, ih tail]
    | tag tag =>
      change findTags word 0 (tag.full ++ render rest) = tag :: tagsOf rest
      rw [findTags_tag plain head, ih tail]

section Stack

variable {stack : List Tag} {top : Tag}

theorem pushTag_stands (role : htmlTags.role tag = .stands) : pushTag stack tag = stack := by
  change Tag.role tag = .stands at role
  unfold Tag.role at role
  unfold pushTag
  split at role
  · next void => rw [if_pos void]
  · split at role <;> cases role

theorem pushTag_opens (role : htmlTags.role tag = .opens) : pushTag stack tag = tag :: stack := by
  change Tag.role tag = .opens at role
  unfold Tag.role at role
  unfold pushTag
  split at role
  · cases role
  · next solid =>
      split at role
      · cases role
      · next opening => rw [if_neg solid, if_pos (by simp [opening])]

theorem pushTag_closes (role : htmlTags.role tag = .closes) (pair : htmlTags.pairs tag top) :
    pushTag (top :: stack) tag = stack := by
  change Tag.role tag = .closes at role
  unfold Tag.role at role
  unfold pushTag
  split at role
  · cases role
  · next solid =>
      split at role
      · next closing =>
          rw [if_neg solid, if_neg (by simp [closing])]
          exact if_pos pair
      · cases role

end Stack

/-- The stack of the source is the stack of a text that is read to its end. -/
theorem foldl_pushTag {stack after : List Tag} {letters : List (Char × List Tag)}
    (reads : Reads htmlTags stack html letters after) :
    (tagsOf html).foldl pushTag stack = after := by
  induction reads with
  | nil => rfl
  | letter _ _ ih => exact ih
  | stands role _ ih => rw [tagsOf, List.foldl_cons, pushTag_stands role, ih]
  | opens role _ ih => rw [tagsOf, List.foldl_cons, pushTag_opens role, ih]
  | closes role pair _ ih => rw [tagsOf, List.foldl_cons, pushTag_closes role pair, ih]

theorem openTags_render (plain : word.Plain) (written : Written word html) {after : List Tag}
    {letters : List (Char × List Tag)} (reads : Reads htmlTags [] html letters after) :
    openTags word (render html) = after := by
  rw [openTags, findTags_render plain written, foldl_pushTag reads]

end Lexing

/-! ## Cuts between letters and tags -/

section Cuts

variable {word : WordChars} {html : List Html} {cut : Nat}

/-- A cut between two letters or tags of the word. -/
def Between (html : List Html) (cut : Nat) : Prop :=
  ∃ first second, html = first ++ second ∧ (render first).length = cut

/-- A cut in a tag of the word. -/
def Inside (html : List Html) (cut : Nat) : Prop :=
  ∃ first tag second, html = first ++ .tag tag :: second ∧ (render first).length < cut ∧
    cut < (render first).length + tag.full.length

/-- The cut stands in the tag that the text starts with. -/
def InFirstTag (text : List Char) (cut : Nat) : Prop :=
  rfind "<".toList text cut = some 0 ∧ findChar '>' text 0 cut = none

theorem between_or_inside (below : cut ≤ (render html).length) :
    Between html cut ∨ Inside html cut := by
  induction html generalizing cut with
  | nil => exact .inl ⟨[], [], rfl, (Nat.le_zero.mp below).symm⟩
  | cons token rest ih =>
    rw [render_cons, List.length_append] at below
    by_cases passed : (tokenText token).length ≤ cut
    · have smaller : cut - (tokenText token).length ≤ (render rest).length := by omega
      rcases ih smaller with ⟨first, second, same, length⟩ | ⟨first, tag, second, same, low, high⟩
      · refine .inl ⟨token :: first, second, by rw [same, List.cons_append], ?_⟩
        rw [render_cons, List.length_append, length]
        omega
      · refine .inr ⟨token :: first, tag, second, by rw [same, List.cons_append], ?_, ?_⟩
        · rw [render_cons, List.length_append]
          omega
        · rw [render_cons, List.length_append]
          omega
    · by_cases front : cut = 0
      · exact .inl ⟨[], token :: rest, rfl, front.symm⟩
      · cases token with
        | letter c =>
          change ¬ 1 ≤ cut at passed
          omega
        | tag tag =>
          change ¬ tag.full.length ≤ cut at passed
          refine .inr ⟨[], tag, rest, rfl, ?_, ?_⟩
          · exact Nat.pos_of_ne_zero front
          · rw [render_nil, List.length_nil]
            omega

/-- What stands in a tag is no angle bracket. -/
theorem Tag.Written.inner (plain : word.Plain) {tag : Tag} (written : tag.Written word) :
    ∃ inner, tag.full = '<' :: (inner ++ ['>']) ∧ ∀ c ∈ inner, c ≠ '<' ∧ c ≠ '>' := by
  obtain ⟨attributes, full, inside, _⟩ := written.full
  refine ⟨(if tag.closing then ['/'] else []) ++ tag.name ++ attributes, full, ?_⟩
  intro c member
  rcases List.mem_append.mp member with member | member
  · rcases List.mem_append.mp member with member | member
    · split at member
      · cases List.mem_singleton.mp member
        exact ⟨by decide, by decide⟩
      · cases member
    · have letter := written.letters c member
      constructor
      · rintro rfl
        rw [plain.openAngle] at letter
        cases letter
      · rintro rfl
        rw [plain.closeAngle] at letter
        cases letter
  · exact inside c member

section Inside

variable {first second : List Html} {tag : Tag}

theorem angle_of_tag (plain : word.Plain) (written : tag.Written word) :
    (render (first ++ .tag tag :: second))[(render first).length]? = some '<' := by
  obtain ⟨inner, full, _⟩ := written.inner plain
  rw [render_append, render_cons, List.getElem?_append_right (Nat.le_refl _), Nat.sub_self]
  change (tag.full ++ render second)[0]? = _
  rw [full]
  rfl

/-- The letters of a tag behind its first and before its last one. -/
theorem inner_of_tag (plain : word.Plain) (written : tag.Written word) {place : Nat}
    (low : (render first).length < place)
    (high : place + 1 < (render first).length + tag.full.length) :
    ∃ c, (render (first ++ .tag tag :: second))[place]? = some c ∧ c ≠ '<' ∧ c ≠ '>' := by
  obtain ⟨inner, full, inside⟩ := written.inner plain
  obtain ⟨offset, rfl⟩ := Nat.exists_eq_add_of_lt low
  have bound : offset < inner.length := by
    rw [full] at high
    simp only [List.length_cons, List.length_append, List.length_nil] at high
    omega
  refine ⟨inner[offset], ?_, inside _ (List.getElem_mem bound)⟩
  rw [render_append, render_cons, List.getElem?_append_right (by omega)]
  have index : (render first).length + offset + 1 - (render first).length = offset + 1 := by omega
  rw [index]
  change (tag.full ++ render second)[offset + 1]? = _
  rw [full, List.cons_append, List.getElem?_cons_succ, List.append_assoc,
    List.getElem?_append_left bound, List.getElem?_eq_getElem bound]

/-- The last letter of a tag closes it. -/
theorem last_of_tag (plain : word.Plain) (written : tag.Written word) {place : Nat}
    (last : place + 1 = (render first).length + tag.full.length) :
    (render (first ++ .tag tag :: second))[place]? = some '>' := by
  obtain ⟨inner, full, _⟩ := written.inner plain
  have length : tag.full.length = inner.length + 2 := by
    rw [full]
    simp
  rw [render_append, render_cons, List.getElem?_append_right (by omega)]
  have index : place - (render first).length = inner.length + 1 := by omega
  rw [index]
  change (tag.full ++ render second)[inner.length + 1]? = _
  rw [full, List.cons_append, List.getElem?_cons_succ, List.append_assoc,
    List.getElem?_append_right (Nat.le_refl _), Nat.sub_self]
  rfl

end Inside

/-- An angle bracket that opens stands between two letters or tags. -/
theorem between_of_angle (plain : word.Plain) (written : Written word html)
    (angle : (render html)[cut]? = some '<') : Between html cut := by
  have below : cut ≤ (render html).length := by
    have bound := (List.getElem?_eq_some_iff.mp angle).1
    omega
  rcases between_or_inside below with between | ⟨first, tag, second, rfl, low, high⟩
  · exact between
  · have member : tag.Written word := written (.tag tag) (by simp)
    by_cases last : cut + 1 = (render first).length + tag.full.length
    · rw [last_of_tag plain member last] at angle
      cases angle
    · obtain ⟨c, stands, plainLetter, _⟩ := @inner_of_tag word first second tag plain member cut low
        (by omega)
      rw [stands] at angle
      cases angle
      exact absurd rfl plainLetter

/-- The last angle bracket before a cut in a tag is the one that opens the tag. -/
theorem rfind_inside (plain : word.Plain) {first second : List Html} {tag : Tag}
    (written : tag.Written word) (low : (render first).length < cut)
    (high : cut < (render first).length + tag.full.length) :
    rfind "<".toList (render (first ++ .tag tag :: second)) cut = some (render first).length ∧
      findChar '>' (render (first ++ .tag tag :: second)) (render first).length cut = none := by
  have angle := @angle_of_tag word first second tag plain written
  have inner : ∀ place, (render first).length < place → place < cut →
      ∃ c, (render (first ++ .tag tag :: second))[place]? = some c ∧ c ≠ '<' ∧ c ≠ '>' :=
    fun place behind before => inner_of_tag plain written behind (by omega)
  constructor
  · cases found : rfind ['<'] (render (first ++ .tag tag :: second)) cut with
    | none => exact absurd angle (rfind_none found low)
    | some place =>
      rcases Nat.lt_trichotomy place (render first).length with earlier | same | later
      · exact absurd angle (rfind_last found earlier low)
      · exact found.trans (congrArg some same)
      · obtain ⟨c, stands, plainLetter, _⟩ := inner place later (by
          have bound := rfind_le found
          simp only [List.length_cons, List.length_nil] at bound
          omega)
        have opens := rfind_char found
        rw [stands] at opens
        cases opens
        exact absurd rfl plainLetter
  · refine findChar_none fun place behind before stands => ?_
    rcases Nat.lt_or_eq_of_le behind with later | rfl
    · obtain ⟨c, letter, _, plainLetter⟩ := inner place later before
      rw [letter] at stands
      cases stands
      exact absurd rfl plainLetter
    · rw [angle] at stands
      cases stands

/-- A cut is moved out of its tag, unless the text starts with the tag. -/
theorem outsideTag_between (plain : word.Plain) (written : Written word html)
    (below : cut ≤ (render html).length) :
    Between html (outsideTag (render html) cut) ∨
      InFirstTag (render html) (outsideTag (render html) cut) := by
  rcases between_or_inside below with between | ⟨first, tag, second, rfl, low, high⟩
  · left
    unfold outsideTag
    split
    · exact between
    · next angle found =>
        split
        · exact between_of_angle plain written (rfind_char found)
        · exact between
  · have member : tag.Written word := written (.tag tag) (by simp)
    obtain ⟨angle, absent⟩ := @rfind_inside word cut plain first second tag member low high
    unfold outsideTag
    rw [angle]
    dsimp only
    rw [absent]
    by_cases front : (render first).length = 0
    · right
      rw [front] at angle absent ⊢
      exact ⟨angle, absent⟩
    · left
      rw [if_pos (by simpa using Nat.pos_of_ne_zero front)]
      exact ⟨first, _, rfl, rfl⟩

end Cuts

/-! ## Rounds -/

theorem preferredCut_le {text : List Char} {limit cut : Nat}
    (chosen : preferredCut text limit = some cut) : cut ≤ limit := by
  unfold preferredCut at chosen
  dsimp only at chosen
  obtain ⟨place, best, moved⟩ := Option.map_eq_some_iff.mp chosen
  have member := List.max?_mem best
  simp only [List.mem_filterMap, List.mem_cons, List.not_mem_nil, or_false, id_eq,
    exists_eq_right] at member
  have bound : ∀ needle, rfind needle text limit = some place → place + needle.length ≤ limit :=
    fun needle found => rfind_le found
  split at moved
  · next found =>
      have ends := bound _ found
      change place + 6 ≤ limit at ends
      omega
  · split at moved
    · next found =>
        have ends := bound _ found
        change place + 2 ≤ limit at ends
        omega
    · split at moved
      · next found =>
          have ends := bound _ found
          change place + 1 ≤ limit at ends
          omega
      · rcases member with found | found | found | found
        all_goals
          have ends := bound _ found.symm
          omega

theorem outsideTag_le (text : List Char) (cut : Nat) : outsideTag text cut ≤ cut := by
  unfold outsideTag
  split
  · exact Nat.le_refl _
  · next angle found =>
      have bound := rfind_le found
      split
      · exact Nat.le_of_add_right_le bound
      · exact Nat.le_refl _

/-- The cut that is chosen before it is moved out of a tag. -/
theorem cutPoint_spec (text : List Char) (limit : Nat) :
    ∃ chosen, cutPoint text limit = outsideTag text chosen ∧ chosen ≤ limit := by
  refine ⟨_, rfl, ?_⟩
  split
  · exact Nat.le_refl _
  · cases chosen : (preferredCut text limit).or (rfind " ".toList text limit) with
    | none => exact Nat.zero_le _
    | some cut =>
      rcases Option.or_eq_some_iff.mp chosen with preferred | ⟨_, blank⟩
      · exact preferredCut_le preferred
      · exact Nat.le_of_add_right_le (rfind_le blank)

theorem cutPoint_le (text : List Char) (limit : Nat) : cutPoint text limit ≤ limit := by
  obtain ⟨chosen, same, bound⟩ := cutPoint_spec text limit
  rw [same]
  exact Nat.le_trans (outsideTag_le text chosen) bound

/-- What a round carries to the next one, unless it is forced. -/
def carried (word : WordChars) (text : List Char) (limit : Nat) : List Char :=
  if lstrip (text.drop (cutPoint text limit)) = [] then []
  else openingText (openTags word (text.take (cutPoint text limit))) ++
    lstrip (text.drop (cutPoint text limit))

/-- The round cuts at its limit or in the tag that the text starts with. -/
def Forced (word : WordChars) (text : List Char) (limit : Nat) : Prop :=
  cutPoint text limit = 0 ∨ carried word text limit = text ∨
    text.length ≤ (carried word text limit).length ∨ InFirstTag text (cutPoint text limit)

theorem splitRound_unforced {word : WordChars} {text : List Char} {limit : Nat}
    (free : ¬ Forced word text limit) :
    splitRound word text limit = (text.take (cutPoint text limit) ++
        closingText (openTags word (text.take (cutPoint text limit))),
        carried word text limit) := by
  have moves : ¬ (cutPoint text limit = 0 ∨ carried word text limit = text ∨
      (carried word text limit).length ≥ text.length) := by
    rintro (stuck | same | longer)
    · exact free (.inl stuck)
    · exact free (.inr (.inl same))
    · exact free (.inr (.inr (.inl longer)))
  exact if_neg moves

/-- No round of the loop is forced. -/
def Unforced (word : WordChars) (limit : Nat) : Nat → List Char → Prop
  | 0, _ => True
  | guard + 1, text =>
    text = [] ∨ text.length ≤ limit ∨
      (¬ Forced word text limit ∧ Unforced word limit guard (splitRound word text limit).2)

/--
A chunk that is a nested text with these letters: at most as long as the limit
but for the tags that close what it leaves open.
-/
def Deliverable (word : WordChars) (limit : Nat) (chunk : List Char)
    (letters : List (Char × List Tag)) : Prop :=
  ∃ front stack, chunk = render front ++ closingText stack ∧ (render front).length ≤ limit ∧
    Reads htmlTags [] front letters stack ∧
    Written word (front ++ stack.map fun tag => .tag tag.close) ∧
    chunk = render (front ++ stack.map fun tag => .tag tag.close) ∧
    Reads htmlTags [] (front ++ stack.map fun tag => .tag tag.close) letters []

section Rounds

variable {word : WordChars} {html : List Html} {letters : List (Char × List Tag)} {limit : Nat}

theorem render_closers (stack : List Tag) :
    render (stack.map fun tag => .tag tag.close) = closingText stack := by
  induction stack with
  | nil => rfl
  | cons tag rest ih =>
    rw [List.map_cons, render_cons, ih]
    rfl

theorem render_openers (stack : List Tag) :
    render (stack.reverse.map Token.tag) = openingText stack := by
  unfold openingText
  induction stack.reverse with
  | nil => rfl
  | cons tag rest ih =>
    rw [List.map_cons, render_cons, ih]
    rfl

theorem role_eq_opens {tag : Tag} (role : htmlTags.role tag = .opens) :
    ¬ (tag.name = "br".toList ∨ tag.name = "img".toList ∨ tag.name = "hr".toList) := by
  intro void
  change Tag.role tag = .opens at role
  rw [Tag.role, if_pos void] at role
  cases role

theorem close_pairs (tag : Tag) (role : htmlTags.role tag = .opens) :
    htmlTags.role tag.close = .closes ∧ htmlTags.pairs tag.close tag := by
  have solid := role_eq_opens role
  constructor
  · change Tag.role tag.close = .closes
    exact (if_neg solid).trans rfl
  · rfl

theorem Tag.Written.close {tag : Tag} (written : tag.Written word) : tag.close.Written word where
  named := written.named
  letters := written.letters
  full := ⟨[], by simp [Tag.close], by simp, by simp⟩

/-- Blanks are letters, and so a written text is stripped letter by letter. -/
theorem lstrip_render (plain : word.Plain) (written : Written word html) :
    lstrip (render html) = render (html.dropWhile (Token.isBlank isSpace)) := by
  induction html with
  | nil => rfl
  | cons token rest ih =>
    obtain ⟨head, tail⟩ := List.forall_mem_cons.mp written
    cases token with
    | letter c =>
      change lstrip (c :: render rest) = _
      by_cases blank : isSpace c = true
      · have skipped : Token.isBlank (T := Tag) isSpace (.letter c) = true := blank
        rw [lstrip, List.dropWhile_cons_of_pos blank, List.dropWhile_cons_of_pos skipped]
        exact ih tail
      · have kept : ¬ Token.isBlank (T := Tag) isSpace (.letter c) = true := blank
        rw [lstrip, List.dropWhile_cons_of_neg blank, List.dropWhile_cons_of_neg kept]
        rfl
    | tag tag =>
      obtain ⟨inner, full, _⟩ := Tag.Written.inner plain head
      change lstrip (tag.full ++ render rest) = _
      have first : ¬ (isSpace '<' = true) := by decide
      rw [full, List.cons_append, lstrip, List.dropWhile_cons_of_neg first]
      change _ = tag.full ++ render rest
      rw [full, List.cons_append]

/-- The tags of a stack are tags of the text. -/
theorem stack_written {front : List Html} {stack start : List Tag}
    (reads : Reads htmlTags start front letters stack) (written : Written word front)
    (before : ∀ tag ∈ start, tag.Written word) : ∀ tag ∈ stack, tag.Written word := by
  induction reads with
  | nil => exact before
  | letter _ _ ih | stands _ _ ih => exact ih (List.forall_mem_cons.mp written).2 before
  | opens _ _ ih =>
    obtain ⟨head, tail⟩ := List.forall_mem_cons.mp written
    exact ih tail (List.forall_mem_cons.mpr ⟨head, before⟩)
  | closes _ _ _ ih =>
    exact ih (List.forall_mem_cons.mp written).2 (List.forall_mem_cons.mp before).2

theorem render_eq_nil (written : Written word html) (nothing : render html = []) : html = [] := by
  cases html with
  | nil => rfl
  | cons token rest =>
    rw [render_cons] at nothing
    have front := (List.append_eq_nil_iff.mp nothing).1
    cases token with
    | letter c => cases front
    | tag tag =>
      obtain ⟨attributes, full, _, _⟩ := (List.forall_mem_cons.mp written).1.full
      change tag.full = [] at front
      rw [full] at front
      cases front

theorem Written.dropWhile (written : Written word html) (holds : Html → Bool) :
    Written word (html.dropWhile holds) :=
  fun token member => written token ((List.dropWhile_sublist holds).subset member)

theorem deliverable_whole (written : Written word html) (reads : Reads htmlTags [] html letters [])
    (short : (render html).length ≤ limit) : Deliverable word limit (render html) letters := by
  refine ⟨html, [], ?_, short, reads, ?_, ?_, ?_⟩
  · exact (List.append_nil _).symm
  · rwa [List.map_nil, List.append_nil]
  · rw [List.map_nil, List.append_nil]
  · rwa [List.map_nil, List.append_nil]

/-- The length of a token. -/
def tokenWeight (token : Html) : Nat := (tokenText token).length

/-- The cut of a round, unless it stands in the tag that the text starts with. -/
theorem cutPoint_between (plain : word.Plain) (written : Written word html)
    (long : limit < (render html).length)
    (out : ¬ InFirstTag (render html) (cutPoint (render html) limit)) :
    ∃ first second, html = first ++ second ∧
      (render html).take (cutPoint (render html) limit) = render first ∧
      (render html).drop (cutPoint (render html) limit) = render second ∧
      (render first).length = cutPoint (render html) limit := by
  have between : Between html (cutPoint (render html) limit) := by
    obtain ⟨chosen, same, below⟩ := cutPoint_spec (render html) limit
    have bound : chosen ≤ (render html).length := by omega
    rcases outsideTag_between plain written bound with between | inside
    · rwa [← same] at between
    · rw [← same] at inside
      exact absurd inside out
  obtain ⟨first, second, rfl, length⟩ := between
  refine ⟨first, second, rfl, ?_, ?_, length⟩
  · rw [← length, render_append, List.take_left]
  · rw [← length, render_append, List.drop_left]

/-- A round that is not forced delivers its chunk and carries a nested text on. -/
theorem round_delivers (plain : word.Plain) (written : Written word html)
    (reads : Reads htmlTags [] html letters []) (long : limit < (render html).length)
    (free : ¬ Forced word (render html) limit) :
    ∃ front gap back rest, letters = front ++ gap ++ back ∧ (∀ each ∈ gap, isSpace each.1 = true) ∧
      Deliverable word limit (splitRound word (render html) limit).1 front ∧
      Written word rest ∧ Reads htmlTags [] rest back [] ∧
      (splitRound word (render html) limit).2 = render rest := by
  have bound := cutPoint_le (render html) limit
  obtain ⟨first, second, rfl, taken, dropped, length⟩ :=
    cutPoint_between plain written long fun inside => free (.inr (.inr (.inr inside)))
  rw [splitRound_unforced free]
  obtain ⟨head, tail⟩ := written.of_append
  obtain ⟨stack, front, gap, back, parts, blank, openers, before, closed, behind, again⟩ :=
    reads.cut isSpace close_pairs
  have tags := stack_written before head (by simp)
  have closers : Written word (stack.map fun tag => .tag tag.close) := by
    intro token member
    obtain ⟨tag, kept, rfl⟩ := List.mem_map.mp member
    exact (tags tag kept).close
  unfold carried
  rw [taken, dropped, openTags_render plain head before, lstrip_render plain tail]
  have chunk : Deliverable word limit (render first ++ closingText stack) front := by
    refine ⟨first, stack, rfl, by omega, before, head.append closers, ?_, closed⟩
    rw [render_append, render_closers]
  by_cases nothing : render (second.dropWhile (Token.isBlank isSpace)) = []
  · have gone := render_eq_nil (tail.dropWhile _) nothing
    rw [gone] at behind
    cases behind
    rw [if_pos nothing]
    exact ⟨front, gap, [], [], parts, blank, chunk, by simp [Written], .nil [], rfl⟩
  · rw [if_neg nothing]
    refine ⟨front, gap, back, _, parts, blank, chunk, ?_, again, ?_⟩
    · refine Written.append ?_ (tail.dropWhile _)
      intro token member
      obtain ⟨tag, kept, rfl⟩ := List.mem_map.mp member
      exact tags tag (List.mem_reverse.mp kept)
    · rw [render_append, render_openers]

/-- Rounds that are not forced deliver nested chunks, whose letters are the letters of the text. -/
theorem loop_delivers (plain : word.Plain) (guard : Nat) (written : Written word html)
    (reads : Reads htmlTags [] html letters [])
    (free : Unforced word limit guard (render html)) :
    ∃ kept left, List.Forall₂ (Deliverable word limit) (splitLoop word limit guard (render html))
        kept ∧
      Pieces (fun each : Char × List Tag => isSpace each.1) letters kept left := by
  induction guard generalizing html letters with
  | zero => exact ⟨[], letters, .nil, .done letters⟩
  | succ guard ih =>
    unfold splitLoop
    split
    · exact ⟨[], letters, .nil, .done letters⟩
    · next something =>
        split
        · next short =>
            exact ⟨[letters], [], .cons (deliverable_whole written reads short) .nil,
              Pieces.whole letters⟩
        · next long =>
            rcases free with nothing | short | ⟨free, further⟩
            · exact absurd nothing something
            · exact absurd short long
            · obtain ⟨front, gap, back, rest, rfl, blank, chunk, restWritten, restReads, same⟩ :=
                round_delivers plain written reads (Nat.lt_of_not_le long) free
              rw [same] at further ⊢
              obtain ⟨kept, left, chunks, pieces⟩ := ih restWritten restReads further
              exact ⟨front :: kept, left, .cons chunk chunks, .cut front gap blank pieces⟩

theorem splitLoop_take (rounds guard : Nat) (text : List Char) (fewer : rounds ≤ guard) :
    (splitLoop word limit guard text).take rounds = splitLoop word limit rounds text := by
  induction rounds generalizing guard text with
  | zero => rfl
  | succ rounds ih =>
    cases guard with
    | zero => cases fewer
    | succ guard =>
      unfold splitLoop
      split
      · rfl
      · split
        · rw [List.take_succ_cons, List.take_nil]
        · rw [List.take_succ_cons, ih guard _ (Nat.le_of_succ_le_succ fewer)]

end Rounds

/-! ## The whole split -/

section Split

variable (python : Interpreter)

theorem plain_isWord : WordChars.Plain (isWord python) := by
  have ascii : ∀ c : Char, c.toNat < 128 → c.isAlphanum = false → c ≠ '_' →
      isWord python c = false := by
    intro c small mark line
    rw [isWord, python.ascii c small, mark, beq_false_of_ne line]
    rfl
  constructor
  · exact ascii '<' (by decide) (by decide) (by decide)
  · exact ascii '>' (by decide) (by decide) (by decide)
  · exact ascii '/' (by decide) (by decide) (by decide)

/--
As long as no round is forced, every chunk is a nested text of whole tags, at
most as long as the limit but for the closing tags that end it, and the letters
of the chunks are the letters of the text with the tags around them, but for
the blanks at the cuts.
-/
theorem chunks_delivered (html : List Html) (letters : List (Char × List Tag))
    (written : Written (isWord python) html) (reads : Reads htmlTags [] html letters [])
    (maxLength rounds : Nat) (fewer : rounds ≤ 200)
    (free : Unforced (isWord python) maxLength rounds (render html)) :
    ∃ kept left, List.Forall₂ (Deliverable (isWord python) maxLength)
        ((splitTextSafe (isWord python) (render html) maxLength).take rounds) kept ∧
      Pieces (fun each : Char × List Tag => isSpace each.1) letters kept left := by
  unfold splitTextSafe
  split
  · next short =>
      cases rounds with
      | zero => exact ⟨[], letters, .nil, .done letters⟩
      | succ rounds =>
        rw [List.take_succ_cons, List.take_nil]
        exact ⟨[letters], [], .cons (deliverable_whole written reads short) .nil,
          Pieces.whole letters⟩
  · rw [splitLoop_take rounds 200 _ fewer]
    exact loop_delivers (plain_isWord python) rounds written reads free

/-- Letters below 128 are the only ones of this interpreter. -/
def latin : Interpreter := ⟨Char.isAlphanum, fun _ _ => rfl, []⟩

def boldTag : Tag := ⟨false, ['b'], "<b>".toList⟩

theorem boldTag_written : boldTag.Written (isWord latin) where
  named := by decide
  letters := forall_mem_of_all (by decide)
  full := ⟨[], by decide, by simp, by simp⟩

/-- A text between bold tags. -/
def boldText (text : List Char) : List Html :=
  .tag boldTag :: (text.map Token.letter ++ [.tag boldTag.close])

theorem boldText_written {text : List Char} (plain : ∀ c ∈ text, c ≠ '<') :
    Written (isWord latin) (boldText text) := by
  intro token member
  rcases List.mem_cons.mp member with rfl | member
  · exact boldTag_written
  · rcases List.mem_append.mp member with member | member
    · obtain ⟨c, letter, rfl⟩ := List.mem_map.mp member
      exact plain c letter
    · rw [List.mem_singleton.mp member]
      exact boldTag_written.close

theorem boldText_reads (text : List Char) :
    Reads htmlTags [] (boldText text) (text.map fun c => (c, [boldTag])) [] := by
  have pair := close_pairs boldTag rfl
  have closes : Reads htmlTags [boldTag] [Token.tag boldTag.close]
      ([] : List (Char × List Tag)) [] :=
    .closes pair.1 pair.2 (.nil [])
  have whole := (Reads.text [boldTag] text).append closes
  rw [List.append_nil] at whole
  exact .opens rfl whole

instance (text : List Char) (cut : Nat) : Decidable (InFirstTag text cut) :=
  inferInstanceAs (Decidable (_ ∧ _))

instance (word : WordChars) (text : List Char) (limit : Nat) : Decidable (Forced word text limit) :=
  inferInstanceAs (Decidable (_ ∨ _ ∨ _ ∨ _))

instance decidableUnforced (word : WordChars) (limit : Nat) :
    (guard : Nat) → (text : List Char) → Decidable (Unforced word limit guard text)
  | 0, _ => isTrue trivial
  | guard + 1, text =>
    have := decidableUnforced word limit guard (splitRound word text limit).2
    inferInstanceAs (Decidable (_ ∨ _ ∨ (_ ∧ _)))

theorem chunks_delivered_bold :
    ∃ kept left, List.Forall₂ (Deliverable (isWord latin) 12)
        ((splitTextSafe (isWord latin) (render (boldText "one two three".toList)) 12).take 200)
        kept ∧
      Pieces (fun each : Char × List Tag => isSpace each.1)
        ("one two three".toList.map fun c => (c, [boldTag])) kept left :=
  chunks_delivered latin (boldText "one two three".toList) _
    (boldText_written (forall_mem_of_all (by decide)))
    (boldText_reads _) 12 200 (Nat.le_refl _) (by decide +kernel)

/-- The chunk is a nested text of whole tags, no longer than the limit. -/
def WholeChunk (limit : Nat) (chunk : List Char) (letters : List (Char × List Tag)) : Prop :=
  chunk.length ≤ limit ∧ ∃ html, Written (isWord python) html ∧ chunk = render html ∧
    Reads htmlTags [] html letters []

/-- Every split of a nested text that the formatter writes has whole chunks of its letters. -/
def SplitsWhole : Prop :=
  ∀ (text : List Char) (html : List Html) (letters : List (Char × List Tag)) (maxLength : Nat),
    sanitizeHtmlTags (markdownToHtml python text) = render html →
    Written (isWord python) html → Reads htmlTags [] html letters [] → 1000 ≤ maxLength →
    ∃ kept left, List.Forall₂ (WholeChunk python maxLength)
        (splitTextSafe (isWord python) (render html) maxLength) kept ∧
      Pieces (fun each : Char × List Tag => isSpace each.1) letters kept left

/-- A bold text with a chunk that is too long. -/
theorem not_splitsWhole {source text : List Char} (plain : ∀ c ∈ text, c ≠ '<')
    (formatted : sanitizeHtmlTags (markdownToHtml latin source) = render (boldText text))
    (long : ∃ chunk ∈ splitTextSafe (isWord latin) (render (boldText text)) 1000,
      1000 < chunk.length) :
    ¬ SplitsWhole latin := by
  intro whole
  obtain ⟨kept, left, chunks, pieces⟩ := whole source (boldText text) _ 1000 formatted
    (boldText_written plain) (boldText_reads text) (Nat.le_refl _)
  clear pieces
  obtain ⟨chunk, member, longer⟩ := long
  have short : ∀ chunk ∈ splitTextSafe (isWord latin) (render (boldText text)) 1000,
      chunk.length ≤ 1000 := by
    generalize splitTextSafe (isWord latin) (render (boldText text)) 1000 = all at chunks
    induction chunks with
    | nil =>
      intro chunk member
      cases member
    | cons holds _ ih => exact List.forall_mem_cons.mpr ⟨holds.1, ih⟩
  exact absurd (short chunk member) (Nat.not_le.mpr longer)

/-- The front of a tag is no text of letters and whole tags. -/
theorem torn {html : List Html} (written : Written (isWord latin) html) :
    render html ≠ ['<', 'a'] := by
  intro same
  cases html with
  | nil => cases same
  | cons token rest =>
    have head := (List.forall_mem_cons.mp written).1
    cases token with
    | letter c =>
      change c :: render rest = '<' :: ['a'] at same
      exact head (List.cons.inj same).1
    | tag tag =>
      obtain ⟨inner, full, _⟩ := head.inner (plain_isWord latin)
      change tag.full ++ render rest = _ at same
      rw [full] at same
      have parts := (List.cons.inj same).2
      cases inner with
      | nil => cases parts
      | cons c others =>
        have lengths := congrArg List.length parts
        simp at lengths

section Long

variable {text : List Char} {limit : Nat}

/-- Without a preferred cut and a blank a text is cut at the limit. -/
theorem preferredCut_none (slash : '/' ∉ text.take limit) (newline : '\n' ∉ text.take limit)
    (dot : '.' ∉ text.take limit) : preferredCut text limit = none := by
  unfold preferredCut
  rw [rfind_absent '/' (by decide) slash, rfind_absent '\n' (by decide) newline,
    rfind_absent '\n' (by decide) newline, rfind_absent '.' (by decide) dot]
  rfl

/-- In a text whose only tag before the cut stands at its front, the cut is not moved. -/
theorem outsideTag_front {cut : Nat} (angle : text[0]? = some '<') (positive : 0 < cut)
    (only : '<' ∉ (text.take cut).drop 1) : outsideTag text cut = cut := by
  have found : rfind "<".toList text cut = some 0 := rfind_eq angle positive only
  unfold outsideTag
  rw [found]
  exact if_neg (by simp)

theorem splitTextSafe_long (word : WordChars) (long : limit < text.length) :
    splitTextSafe word text limit = (splitRound word text limit).1 ::
        splitLoop word limit 199 (splitRound word text limit).2 := by
  have something : text ≠ [] := by
    rintro rfl
    cases long
  have longer : ¬ text.length ≤ limit := Nat.not_le.mpr long
  unfold splitTextSafe
  rw [if_neg longer, splitLoop, if_neg something, if_neg longer]

/-- The chunk of a round whose cut is known and leaves a shorter rest. -/
theorem splitRound_cut {word : WordChars} {cut : Nat} (chosen : cutPoint text limit = cut)
    (positive : cut ≠ 0)
    (shorter : (openingText (openTags word (text.take cut)) ++ lstrip (text.drop cut)).length <
      text.length) :
    (splitRound word text limit).1 =
      text.take cut ++ closingText (openTags word (text.take cut)) := by
  subst chosen
  have moves : (carried word text limit).length < text.length := by
    unfold carried
    split
    · exact Nat.zero_lt_of_lt shorter
    · exact shorter
  have free : ¬ (cutPoint text limit = 0 ∨ carried word text limit = text ∨
      (carried word text limit).length ≥ text.length) := by
    rintro (stuck | same | longer)
    · exact positive stuck
    · exact absurd (congrArg List.length same) (Nat.ne_of_lt moves)
    · exact absurd moves (Nat.not_lt.mpr longer)
  exact congrArg Prod.fst (if_neg free)

def longWord : List Char := List.replicate 1100 'a'

theorem longWord_plain : ∀ c ∈ longWord, c ≠ '<' := by
  intro c member
  rw [List.eq_of_mem_replicate member]
  decide

theorem longBold_formatted :
    sanitizeHtmlTags (markdownToHtml latin ("**".toList ++ longWord ++ "**".toList)) =
      render (boldText longWord) := by
  decide +kernel

theorem longBold_cut : cutPoint (render (boldText longWord)) 1000 = 1000 := by
  unfold cutPoint
  rw [preferredCut_none (by decide +kernel) (by decide +kernel) (by decide +kernel),
    rfind_absent ' ' (by decide) (by decide +kernel)]
  exact outsideTag_front rfl (by decide) (by decide +kernel)

theorem longBold_split :
    ∃ chunk ∈ splitTextSafe (isWord latin) (render (boldText longWord)) 1000,
      1000 < chunk.length := by
  rw [splitTextSafe_long _ (by decide +kernel)]
  refine ⟨_, List.mem_cons_self, ?_⟩
  rw [splitRound_cut longBold_cut (by decide) (by decide +kernel)]
  decide +kernel

/-- A link around the long word. -/
def longLink : List Char := "<a href=\"u\">".toList ++ longWord ++ "</a>".toList

theorem longLink_formatted :
    sanitizeHtmlTags (markdownToHtml latin ('[' :: longWord ++ "](u)".toList)) = longLink := by
  decide +kernel

theorem longLink_cut : cutPoint longLink 1000 = 2 := by
  have blank : rfind " ".toList longLink 1000 = some 2 :=
    rfind_eq (by decide +kernel) (by decide) (by decide +kernel)
  unfold cutPoint
  rw [preferredCut_none (by decide +kernel) (by decide +kernel) (by decide +kernel), blank]
  exact outsideTag_front (by decide +kernel) (by decide) (by decide +kernel)

theorem longLink_split : ['<', 'a'] ∈ splitTextSafe (isWord latin) longLink 1000 := by
  rw [splitTextSafe_long _ (by decide +kernel)]
  have front : (splitRound (isWord latin) longLink 1000).1 = ['<', 'a'] := by
    rw [splitRound_cut longLink_cut (by decide) (by decide +kernel)]
    decide +kernel
  rw [front]
  exact List.mem_cons_self

end Long

/--
A chunk of a long bold word is longer than the limit by its closing tag.  And
the tag in front of a long link is torn at the blank it holds.
-/
theorem split_not_whole :
    ¬ SplitsWhole latin ∧ ['<', 'a'] ∈ splitTextSafe (isWord latin)
        (sanitizeHtmlTags (markdownToHtml latin ('[' :: longWord ++ "](u)".toList))) 1000 ∧
      ∀ html, Written (isWord latin) html → render html ≠ ['<', 'a'] := by
  refine ⟨not_splitsWhole longWord_plain longBold_formatted longBold_split, ?_,
    fun html written => torn written⟩
  rw [longLink_formatted]
  exact longLink_split

end Split

end BobbyBotique.Delivery
