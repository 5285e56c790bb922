import BobbyBotique.Reader.Layout

/-!
# The reader emits no active content

Where the markers stand alone, the page is its blocks in their order with the
rendered fences in the places of the markers, and every block is made of plain
letters, entities and tags of the renderer.
-/

namespace BobbyBotique.Reader

open Delivery

/-! ## What a tag is made of -/

theorem lt_not_mem_escape (text : Text) : '<' ∉ escape text := by
  unfold escape
  rw [List.mem_flatMap]
  rintro ⟨c, _, among⟩
  unfold escapeChar at among
  cases found : entity? c with
  | none =>
    rw [found] at among
    obtain rfl := List.mem_singleton.mp among
    cases found
  | some written =>
    rw [found] at among
    have plain : ∀ text ∈ entities, '<' ∉ text := by decide
    exact plain written (entity?_mem found) among

theorem zero_not_mem_escape {text : Text} (solid : '\x00' ∉ text) : '\x00' ∉ escape text := by
  unfold escape
  rw [List.mem_flatMap]
  rintro ⟨c, letter, among⟩
  unfold escapeChar at among
  cases found : entity? c with
  | none =>
    rw [found] at among
    obtain rfl := List.mem_singleton.mp among
    exact solid letter
  | some written =>
    rw [found] at among
    have plain : ∀ text ∈ entities, '\x00' ∉ text := by decide
    exact plain written (entity?_mem found) among

theorem not_mem_digits {c : Char} (other : c.isDigit = false) (number : Nat) :
    c ∉ Nat.toDigits 10 number := by
  intro among
  have digit := Nat.isDigit_of_mem_toDigits (by decide) (by decide) among
  rw [other] at digit
  cases digit

section

variable {texts : List Text} {fences : List Fence}

/-- A tag opens with its only bracket. -/
theorem ReaderTag.opens {tag : Text} (written : ReaderTag texts fences tag) :
    ∃ body, tag = '<' :: body ∧ '<' ∉ body := by
  have listed : ∀ tag ∈ inlineTags ++ blockTags, tag.head? = some '<' ∧ '<' ∉ tag.tail := by
    decide +kernel
  have known : ∀ {front behind : Text}, front.head? = some '<' ∧ '<' ∉ front.tail →
      '<' ∉ behind → ∃ body, front ++ behind = '<' :: body ∧ '<' ∉ body := by
    rintro front behind ⟨head, tail⟩ plain
    cases front with
    | nil => cases head
    | cons c body =>
      obtain rfl := Option.some.inj head
      exact ⟨body ++ behind, rfl, List.not_mem_append tail plain⟩
  have whole : ∀ {tag : Text}, tag ∈ inlineTags ++ blockTags →
      ∃ body, tag = '<' :: body ∧ '<' ∉ body := by
    intro tag among
    have opened := known (listed tag among) (List.not_mem_nil (a := '<'))
    rwa [List.append_nil] at opened
  have quoted : '<' ∉ "\">".toList := by decide +kernel
  cases written with
  | inline listed => exact whole (List.mem_append_left _ listed)
  | block listed => exact whole (List.mem_append_right _ listed)
  | heading level small name encoded =>
    have digits := @not_mem_digits '<' (by decide) level
    have between : '<' ∉ " id=\"".toList := by decide +kernel
    have plain : '<' ∉ name := by
      intro among
      rcases encoded '<' among with kept | same
      · revert kept
        decide
      · revert same
        decide
    refine ⟨_, rfl, ?_⟩
    refine List.not_mem_append (List.not_mem_append (List.not_mem_append ?_ between) plain) quoted
    exact List.not_mem_cons_of_ne_of_not_mem (by decide) digits
  | endHeading level small =>
    have digits := @not_mem_digits '<' (by decide) level
    rw [List.append_assoc]
    refine known (by decide +kernel) ?_
    exact List.not_mem_cons_of_ne_of_not_mem (by decide)
      (List.not_mem_append digits (by decide +kernel))
  | anchor url text rendered piece safe =>
    rw [List.append_assoc]
    exact known (by decide +kernel)
      (List.not_mem_append (lt_not_mem_escape url) (by decide +kernel))
  | codeBlock block fenced | download block fenced =>
    rw [List.append_assoc]
    exact known (by decide +kernel) (List.not_mem_append (lt_not_mem_escape block.lang) quoted)
  | code block fenced =>
    have between : '<' ∉ "\" data-code=\"".toList := by decide +kernel
    rw [List.append_assoc, List.append_assoc, List.append_assoc]
    refine known (by decide +kernel) (List.not_mem_append (lt_not_mem_escape block.lang) ?_)
    exact List.not_mem_append between (List.not_mem_append (lt_not_mem_escape block.code) quoted)

/-- Every opening bracket of a composed text starts a tag. -/
theorem starts_tag {allowed : Char → Prop} {html : Text}
    (composed : Composed (Rendered allowed (ReaderTag texts fences)) html) {before rest : Text}
    (place : html = before ++ '<' :: rest) :
    ∃ tag behind, ReaderTag texts fences tag ∧ '<' :: rest = tag ++ behind := by
  induction composed generalizing before with
  | nil => exact absurd place.symm (by simp)
  | @cons piece left whole _ ih =>
    by_cases plain : '<' ∈ piece
    · obtain ⟨part, sound, rfl⟩ := whole
      cases part with
      | char c =>
        obtain rfl := List.mem_singleton.mp plain
        cases sound.1
      | entity c =>
        have none : ∀ text ∈ entities, '<' ∉ text := by decide
        exact absurd plain (none _ (mem_entities_of_isSome sound.1))
      | tag text =>
        obtain ⟨body, rfl, clear⟩ := ReaderTag.opens sound
        cases before with
        | nil => exact ⟨_, left, sound, place.symm⟩
        | cons c before =>
          obtain ⟨_, later⟩ := List.cons.inj place
          obtain ⟨tail, rfl, inside⟩ := append_split clear later
          exact ih inside
    · obtain ⟨tail, rfl, inside⟩ := append_split plain place
      exact ih inside

/-- A tag holds no letter of the markers where its texts hold none. -/
theorem ReaderTag.solid {tag : Text} (written : ReaderTag texts fences tag)
    (plain : ∀ text ∈ texts, '\x00' ∉ text)
    (fenced : ∀ block ∈ fences, '\x00' ∉ block.lang ∧ '\x00' ∉ block.code) : '\x00' ∉ tag := by
  have listed : ∀ tag ∈ inlineTags ++ blockTags, '\x00' ∉ tag := by decide +kernel
  have quoted : '\x00' ∉ "\">".toList := by decide +kernel
  cases written with
  | inline known => exact listed tag (List.mem_append_left _ known)
  | block known => exact listed tag (List.mem_append_right _ known)
  | heading level small name encoded =>
    have digits := @not_mem_digits '\x00' (by decide) level
    have between : '\x00' ∉ " id=\"".toList := by decide +kernel
    have clear : '\x00' ∉ name := by
      intro among
      rcases encoded '\x00' among with kept | same
      · revert kept
        decide
      · revert same
        decide
    refine List.not_mem_append (List.not_mem_append (List.not_mem_append ?_ between) clear) quoted
    exact List.not_mem_cons_of_ne_of_not_mem (by decide)
      (List.not_mem_cons_of_ne_of_not_mem (by decide) digits)
  | endHeading level small =>
    have digits := @not_mem_digits '\x00' (by decide) level
    refine List.not_mem_append (List.not_mem_append (by decide +kernel) ?_) (by decide +kernel)
    exact List.not_mem_cons_of_ne_of_not_mem (by decide) digits
  | anchor url text rendered piece safe =>
    have clear := zero_not_mem_escape fun among => plain text rendered (piece.subset among)
    exact List.not_mem_append (List.not_mem_append (by decide +kernel) clear) (by decide +kernel)
  | codeBlock block known | download block known =>
    have clear := zero_not_mem_escape (fenced block known).1
    exact List.not_mem_append (List.not_mem_append (by decide +kernel) clear) quoted
  | code block known =>
    have lang := zero_not_mem_escape (fenced block known).1
    have code := zero_not_mem_escape (fenced block known).2
    refine List.not_mem_append (List.not_mem_append (List.not_mem_append ?_ ?_) code) quoted
    · exact List.not_mem_append (by decide +kernel) lang
    · decide +kernel

theorem composed_solid {allowed : Char → Prop} {html : Text}
    (composed : Composed (Rendered allowed (ReaderTag texts fences)) html)
    (solid : ¬allowed '\x00') (plain : ∀ text ∈ texts, '\x00' ∉ text)
    (fenced : ∀ block ∈ fences, '\x00' ∉ block.lang ∧ '\x00' ∉ block.code) : '\x00' ∉ html := by
  induction composed with
  | nil => exact List.not_mem_nil
  | cons whole _ ih =>
    intro among
    rcases List.mem_append.mp among with here | later
    · obtain ⟨part, sound, rfl⟩ := whole
      cases part with
      | char c =>
        obtain rfl := List.mem_singleton.mp here
        exact solid sound.2
      | entity c =>
        have none : ∀ text ∈ entities, '\x00' ∉ text := by decide
        exact none _ (mem_entities_of_isSome sound.1) here
      | tag text => exact ReaderTag.solid sound plain fenced here
    · exact ih later

end

/-! ## The rendered blocks -/

section

variable {lib : Library} {allowed : Char → Prop} {texts : List Text} {fences : List Fence}

theorem composed_block {tag : Text} (listed : tag ∈ blockTags) :
    Composed (Rendered allowed (ReaderTag texts fences)) tag :=
  .single (.tag (.block listed))

theorem composed_intercalate {unit : Text → Prop} {separator : Text} {words : List Text}
    (between : Composed unit separator) (all : ∀ word ∈ words, Composed unit word) :
    Composed unit (separator.intercalate words) := by
  induction words with
  | nil => exact .nil
  | cons word rest ih =>
    have later := ih fun other among => all other (List.mem_cons_of_mem word among)
    have here := all word List.mem_cons_self
    cases rest with
    | nil => simpa [List.intercalate] using here
    | cons next others =>
      have shape : separator.intercalate (word :: next :: others) =
          word ++ (separator ++ separator.intercalate (next :: others)) := by
        simp [List.intercalate]
      rw [shape]
      exact here.append (between.append later)

theorem hexDigit_unreserved {digit : Nat} (small : digit < 16) :
    unreserved (hexDigit digit) = true := by
  have all : ∀ digit < 16, unreserved (hexDigit digit) = true := by decide
  exact all digit small

/-- A quoted text is percent-encoded. -/
theorem quote_encoded (text : Text) : ∀ c ∈ quote text, unreserved c = true ∨ c = '%' := by
  intro c among
  obtain ⟨letter, _, among⟩ := List.mem_flatMap.mp among
  split at among
  · next kept =>
      obtain rfl := List.mem_singleton.mp among
      exact .inl kept
  · obtain ⟨byte, _, among⟩ := List.mem_flatMap.mp among
    have small : byte.toNat < 256 := byte.toNat_lt
    simp only [List.mem_cons, List.not_mem_nil, or_false] at among
    rcases among with rfl | rfl | rfl
    · exact .inr rfl
    · exact .inl (hexDigit_unreserved (by omega))
    · exact .inl (hexDigit_unreserved (by omega))

theorem escape_quote (text : Text) : escape (quote text) = quote text := by
  have plain : ∀ c ∈ quote text, entity? c = none := by
    intro c among
    cases found : entity? c with
    | none => rfl
    | some written =>
      have among' := mem_special_of_entity? (by rw [found]; rfl : (entity? c).isSome = true)
      have reserved : ∀ c ∈ special, ¬(unreserved c = true ∨ c = '%') :=
        forall_mem_of_all (by decide +kernel)
      exact absurd (quote_encoded text c among) (reserved c among')
  generalize quote text = name at plain
  induction name with
  | nil => rfl
  | cons c rest ih =>
    change escapeChar c ++ escape rest = c :: rest
    rw [ih fun other among => plain other (List.mem_cons_of_mem c among), escapeChar,
      plain c List.mem_cons_self]
    rfl

/-- A block without a marker is composed where the links of its texts are clean. -/
theorem composed_render {block : Block} (plain : block.isCode = false)
    (clean : ∀ text ∈ block.texts, CleanLinks lib text)
    (known : ∀ text ∈ block.texts, ∀ c ∈ text, allowed c)
    (listed : ∀ text ∈ block.texts, text ∈ texts) :
    Composed (Rendered allowed (ReaderTag texts fences)) (block.render lib) := by
  have inlined : ∀ text ∈ block.texts,
      Composed (Rendered allowed (ReaderTag texts fences)) (inline lib text) :=
    fun text among => composed_inline (clean text among) (known text among) (listed text among)
  have items : ∀ items : List Text, (∀ text ∈ items, text ∈ block.texts) →
      Composed (Rendered allowed (ReaderTag texts fences)) (items.map (listItem lib)).flatten := by
    intro items within
    apply Composed.flatten
    intro word among
    obtain ⟨text, inside, rfl⟩ := List.mem_map.mp among
    exact ((composed_block (by decide +kernel)).append (inlined text (within text inside))).append
      (composed_block (by decide +kernel))
  cases block with
  | heading level text =>
    have small : min level 3 ≤ 3 := Nat.min_le_right _ _
    have name : escape (slug lib (cleanHeading text)) = slug lib (cleanHeading text) := by
      unfold slug
      exact escape_quote _
    have encoded : ∀ c ∈ slug lib (cleanHeading text), unreserved c = true ∨ c = '%' := by
      unfold slug
      exact quote_encoded _
    have first : Composed (Rendered allowed (ReaderTag texts fences)) _ :=
      .single (.tag (.heading (min level 3) small (slug lib (cleanHeading text))
        encoded))
    have last : Composed (Rendered allowed (ReaderTag texts fences)) _ :=
      .single (.tag (.endHeading (min level 3) small))
    have whole := (first.append (inlined text List.mem_cons_self)).append last
    have shape : Block.render lib (.heading level text) =
        ('<' :: 'h' :: Nat.toDigits 10 (min level 3)) ++ " id=\"".toList ++
          escape (slug lib (cleanHeading text)) ++ "\">".toList ++ inline lib text ++
          "</".toList ++ ('h' :: Nat.toDigits 10 (min level 3)) ++ ">".toList := rfl
    rw [shape, name]
    generalize "\">".toList = quoted at whole ⊢
    generalize "</".toList = closed at whole ⊢
    generalize " id=\"".toList = named at whole ⊢
    simpa only [List.append_assoc] using whole
  | rule => exact composed_block (show "<hr>".toList ∈ blockTags by decide +kernel)
  | quote lines =>
    have opening : "<blockquote>".toList ∈ inlineTags := by decide +kernel
    have closes : "</blockquote>".toList ∈ inlineTags := by decide +kernel
    refine ((Composed.single (.tag (.inline opening))).append (composed_intercalate
      (composed_block (by decide +kernel)) ?_)).append (.single (.tag (.inline closes)))
    intro word among
    obtain ⟨text, inside, rfl⟩ := List.mem_map.mp among
    exact inlined text inside
  | bullets texts | numbered texts =>
    exact ((composed_block (by decide +kernel)).append (items texts fun _ among => among)).append
      (composed_block (by decide +kernel))
  | code stripped => cases plain
  | paragraph text =>
    exact ((composed_block (by decide +kernel)).append (inlined text List.mem_cons_self)).append
      (composed_block (by decide +kernel))

/-- A rendered fence is composed. -/
theorem composed_codeBlock {block : Fence} (fenced : block ∈ fences)
    (lang : ∀ c ∈ block.lang, allowed c) (code : ∀ c ∈ block.code, allowed c)
    (own : ∀ c ∈ "⛶↓Копия".toList, allowed c) :
    Composed (Rendered allowed (ReaderTag texts fences)) (codeBlock block) := by
  have shown : Composed (Rendered allowed (ReaderTag texts fences)) (escape block.lang) :=
    composed_escape lang
  have copied : Composed (Rendered allowed (ReaderTag texts fences)) (escape block.code) :=
    composed_escape code
  have letters : ∀ word : Text, (∀ c ∈ word, c ∈ "⛶↓Копия".toList) →
      Composed (Rendered allowed (ReaderTag texts fences)) word := by
    intro word within
    apply Composed.letters
    intro c among
    have plain : ∀ c ∈ "⛶↓Копия".toList, entity? c = none :=
      forall_mem_of_all (by decide +kernel)
    exact .char (plain c (within c among)) (own c (within c among))
  have tag : ∀ {tag : Text}, tag ∈ blockTags →
      Composed (Rendered allowed (ReaderTag texts fences)) tag := composed_block
  have closes : "</code>".toList ∈ inlineTags := by decide +kernel
  unfold codeBlock
  dsimp only
  change Composed _ (_ ++ escape block.lang ++ _ ++ _ ++ _ ++ escape block.lang ++ _ ++ _ ++ _ ++
    (_ ++ escape block.lang ++ _ ++ _ ++ _) ++ _ ++ _ ++ _ ++ _ ++
    (_ ++ escape block.lang ++ _ ++ escape block.code ++ _) ++ escape block.code ++ _ ++ _ ++ _)
  have first := (Composed.single (Rendered.tag (ReaderTag.codeBlock block fenced)) :
    Composed (Rendered allowed (ReaderTag texts fences)) _)
  have download := (Composed.single (Rendered.tag (ReaderTag.download block fenced)) :
    Composed (Rendered allowed (ReaderTag texts fences)) _)
  have source := (Composed.single (Rendered.tag (ReaderTag.code block fenced)) :
    Composed (Rendered allowed (ReaderTag texts fences)) _)
  refine .append (.append (.append (.append (.append (.append (.append (.append (.append (.append
    (.append (.append (.append (.append (.append (.append ?_ ?_) ?_) ?_) ?_) ?_) ?_) ?_) ?_) ?_)
    ?_) ?_) ?_) ?_) ?_) ?_) ?_
  · exact first
  · exact tag (by decide +kernel)
  · exact tag (by decide +kernel)
  · exact shown
  · exact tag (by decide +kernel)
  · exact tag (by decide +kernel)
  · refine ((tag (by decide +kernel)).append (letters _ ?_)).append (tag (by decide +kernel))
    exact forall_mem_of_all (by decide +kernel)
  · refine (download.append (letters _ ?_)).append (tag (by decide +kernel))
    exact forall_mem_of_all (by decide +kernel)
  · refine ((tag (by decide +kernel)).append (letters _ ?_)).append (tag (by decide +kernel))
    exact forall_mem_of_all (by decide +kernel)
  · exact tag (by decide +kernel)
  · exact tag (by decide +kernel)
  · exact tag (by decide +kernel)
  · exact source
  · exact copied
  · exact .single (.tag (.inline closes))
  · exact tag (by decide +kernel)
  · exact tag (by decide +kernel)

end

end BobbyBotique.Reader
