import BobbyBotique.Reader.Restore

/-!
# What the page is made of

The blocks of the source in their order, with the rendered fences in the places of
their markers: every letter of the source is escaped or inside a tag of the renderer.
-/

namespace BobbyBotique.Reader

open Delivery

/-! ## The arranged page -/

section

variable (lib : Library)

/-- The output lines of the blocks, with a fence for each marker. -/
def arrange : List Fence → List Block → List Text
  | _, [] => []
  | fence :: fences, .code _ :: rest => codeBlock fence :: arrange fences rest
  | fences, block :: rest => block.render lib :: arrange fences rest

theorem arrange_code (fence : Fence) (fences : List Fence) (stripped : Text)
    (rest : List Block) :
    arrange lib (fence :: fences) (.code stripped :: rest) =
      codeBlock fence :: arrange lib fences rest := rfl

theorem arrange_other {block : Block} (plain : block.isCode = false) (fences : List Fence)
    (rest : List Block) :
    arrange lib fences (block :: rest) = block.render lib :: arrange lib fences rest := by
  cases block with
  | code stripped => cases plain
  | _ => cases fences <;> rfl

/-- The fenced blocks of a source. -/
def fencesOf (source : Text) : List Fence := (protect lib.python 0 none 0 source).2

/-- The texts of a source that get inline markup. -/
def inlineTexts (source : Text) : List Text := (pageBlocks lib source).flatMap Block.texts

/-- What the renderer shows beside the letters of the source. -/
def ownLetters : List Char := " \n⛶↓Копияplaintext".toList

/-- A letter of the source, or one that the renderer shows by itself. -/
def Shown (source : Text) (c : Char) : Prop := c ∈ source ∨ c ∈ ownLetters

/-- A tag of the renderer for this source. -/
def PageTag (source : Text) : Text → Prop :=
  ReaderTag (inlineTexts lib source) (fencesOf lib source)

/-- The page holds no markup but that of the renderer, and each fence once, in its place. -/
structure Inert (source html : Text) : Prop where
  /-- Outside of the tags there are plain letters and entities. -/
  composed : Composed (Rendered (Shown source) (PageTag lib source)) html
  opens : ∀ before rest, html = before ++ '<' :: rest →
    ∃ tag behind, PageTag lib source tag ∧ '<' :: rest = tag ++ behind
  placed : html = joinLines (arrange lib (fencesOf lib source) (pageBlocks lib source))
  once : (pageBlocks lib source).countP Block.isCode = (fencesOf lib source).length
  pieces : ∀ block ∈ fencesOf lib source, block.word <:+: source ∧ block.code <:+: source

/-- No marker letter, nothing behind a closing fence, no tag in the address of a link. -/
structure Tame (source : Text) : Prop where
  solid : '\x00' ∉ source
  closed : closedLines lib.python 0 none source = true
  links : ∀ text ∈ inlineTexts lib source, CleanLinks lib text

end

section

variable {lib : Library} {source : Text}

theorem solid_shown (solid : '\x00' ∉ source) : ¬Shown source '\x00' := by
  rintro (among | own)
  · exact solid among
  · revert own
    decide +kernel

/-- The letters of a fence are those of the source. -/
theorem protect_pieces {python : Interpreter} {skip index : Nat} {before : Option Char}
    {text : Text} : ∀ block ∈ (protect python skip before index text).2,
      block.word <:+: text ∧ block.code <:+: text := by
  induction text generalizing skip index before with
  | nil =>
    intro block among
    cases skip <;> exact absurd among List.not_mem_nil
  | cons c rest ih =>
    have wider : ∀ {piece : Text}, piece <:+: rest → piece <:+: c :: rest :=
      fun inside => inside.trans (List.suffix_cons c rest).isInfix
    intro block among
    cases skip with
    | succ skip => exact ⟨wider (ih block among).1, wider (ih block among).2⟩
    | zero =>
      rw [protect] at among
      cases found : fenceAt python before (c :: rest) with
      | none =>
        rw [found] at among
        exact ⟨wider (ih block among).1, wider (ih block among).2⟩
      | some result =>
        obtain ⟨length, first⟩ := result
        rw [found] at among
        rcases List.mem_cons.mp among with rfl | later
        · obtain ⟨_, _, _, _, _, word, code⟩ := fenceAt_spec found
          exact ⟨word, code⟩
        · exact ⟨wider (ih block later).1, wider (ih block later).2⟩

/-- The blocks of a source without surprises. -/
theorem Tame.arranged (tame : Tame lib source) :
    Arranged (Shown source) 0 (pageBlocks lib source) (fencesOf lib source).length := by
  have layout := (@protect_layout lib.python (Shown source) none 0 source tame.closed
    fun c among => .inl among).1 rfl
  rw [Nat.zero_add] at layout
  refine blocks_arranged layout (.inr (by decide +kernel)) (solid_shown tame.solid) ?_
  exact fun _ absurd => (List.not_mem_nil absurd).elim

theorem shown_fence (block : Fence) (fenced : block ∈ fencesOf lib source) :
    (∀ c ∈ block.lang, Shown source c) ∧ ∀ c ∈ block.code, Shown source c := by
  obtain ⟨word, code⟩ := protect_pieces block fenced
  refine ⟨fun c among => ?_, fun c among => .inl (code.subset among)⟩
  unfold Fence.lang at among
  split at among
  · have own : ∀ c ∈ "plaintext".toList, c ∈ ownLetters :=
      forall_mem_of_all (by decide +kernel)
    exact .inr (own c among)
  · exact .inl (word.subset among)

theorem arranged_count {allowed : Char → Prop} {index count : Nat} {blocks : List Block}
    (arranged : Arranged allowed index blocks count) :
    index + blocks.countP Block.isCode = count := by
  induction arranged with
  | nil => rfl
  | other plain _ _ ih => rw [List.countP_cons_of_neg (by rw [plain]; exact Bool.false_ne_true), ih]
  | code _ ih =>
    rw [List.countP_cons_of_pos rfl]
    omega

theorem arranged_known {allowed : Char → Prop} {index count : Nat} {blocks : List Block}
    (arranged : Arranged allowed index blocks count) :
    ∀ block ∈ blocks, ∀ text ∈ block.texts, ∀ c ∈ text, allowed c := by
  induction arranged with
  | nil => exact fun _ absurd => (List.not_mem_nil absurd).elim
  | other _ known _ ih =>
    intro block among
    rcases List.mem_cons.mp among with rfl | later
    · exact known
    · exact ih block later
  | code _ ih =>
    intro block among
    rcases List.mem_cons.mp among with rfl | later
    · exact fun _ absurd => (List.not_mem_nil absurd).elim
    · exact ih block later

/-- The rendered blocks are slots, and filling them arranges the fences. -/
theorem arranged_filled {allowed : Char → Prop} {fences : List Fence} {index count : Nat}
    {blocks : List Block} (arranged : Arranged allowed index blocks count)
    (all : count = fences.length)
    (plain : ∀ block ∈ blocks, block.isCode = false → '\x00' ∉ block.render lib)
    (solid : ∀ block ∈ fences, '\x00' ∉ codeBlock block) :
    (∀ line ∈ blocks.map (Block.render lib), Slot line) ∧
      (blocks.map (Block.render lib)).map (filled (fences.map codeBlock) 0) =
        arrange lib (fences.drop index) blocks := by
  induction arranged with
  | nil => exact ⟨fun _ absurd => (List.not_mem_nil absurd).elim, rfl⟩
  | @other index count block rest code known behind ih =>
    obtain ⟨slots, same⟩ := ih all fun other among => plain other (List.mem_cons_of_mem _ among)
    have clear := plain block List.mem_cons_self code
    constructor
    · intro line among
      rcases List.mem_cons.mp among with rfl | later
      · exact .inl clear
      · exact slots line later
    · rw [List.map_cons, List.map_cons, same, filled_solid clear]
      exact (arrange_other lib code _ _).symm
  | @code index count rest behind ih =>
    obtain ⟨slots, same⟩ := ih all fun other among => plain other (List.mem_cons_of_mem _ among)
    have inside : index < fences.length := by
      have := arranged_count behind
      omega
    have solid' : ∀ text ∈ fences.map codeBlock, '\x00' ∉ text := by
      intro text among
      obtain ⟨block, listed, rfl⟩ := List.mem_map.mp among
      exact solid block listed
    have found : (fences.map codeBlock)[index]? = some (codeBlock fences[index]) := by
      rw [List.getElem?_map, List.getElem?_eq_getElem inside]
      rfl
    constructor
    · intro line among
      rcases List.mem_cons.mp among with rfl | later
      · exact .inr ⟨index, rfl⟩
      · exact slots line later
    · have here : filled (fences.map codeBlock) 0 (Block.render lib (.code (marker index))) =
          codeBlock fences[index] := by
        have filling := @filled_marker _ solid' 0 index _ found
        rwa [Nat.zero_add] at filling
      rw [List.map_cons, List.map_cons, same, here, List.drop_eq_getElem_cons inside]
      exact (arrange_code lib _ _ _ _).symm

/-- What holds of the plain blocks and of the fences holds of every line. -/
theorem arranged_lines {allowed : Char → Prop} {holds : Text → Prop} {fences : List Fence}
    {index count : Nat} {blocks : List Block} (arranged : Arranged allowed index blocks count)
    (all : count = fences.length)
    (plain : ∀ block ∈ blocks, block.isCode = false → holds (block.render lib))
    (coded : ∀ block ∈ fences, holds (codeBlock block)) :
    ∀ line ∈ arrange lib (fences.drop index) blocks, holds line := by
  induction arranged with
  | nil => exact fun _ absurd => (List.not_mem_nil absurd).elim
  | @other index count block rest code known behind ih =>
    have later := ih all fun other among => plain other (List.mem_cons_of_mem _ among)
    rw [arrange_other lib code]
    exact List.forall_mem_cons.mpr ⟨plain block List.mem_cons_self code, later⟩
  | @code index count rest behind ih =>
    have later := ih all fun other among => plain other (List.mem_cons_of_mem _ among)
    have inside : index < fences.length := by
      have := arranged_count behind
      omega
    rw [List.drop_eq_getElem_cons inside, arrange_code]
    exact List.forall_mem_cons.mpr ⟨coded _ (List.getElem_mem inside), later⟩

/-! ## The page -/

theorem Tame.composed_plain (tame : Tame lib source) :
    ∀ block ∈ pageBlocks lib source, block.isCode = false →
      Composed (Rendered (Shown source) (PageTag lib source)) (block.render lib) := by
  intro block among plain
  have listed : ∀ text ∈ block.texts, text ∈ inlineTexts lib source :=
    fun text inside => List.mem_flatMap.mpr ⟨block, among, inside⟩
  exact composed_render plain (fun text inside => tame.links text (listed text inside))
    (arranged_known tame.arranged block among) listed

theorem composed_fence :
    ∀ block ∈ fencesOf lib source,
      Composed (Rendered (Shown source) (PageTag lib source)) (codeBlock block) := by
  intro block fenced
  obtain ⟨lang, code⟩ := shown_fence block fenced
  refine composed_codeBlock fenced lang code fun c among => .inr ?_
  have own : ∀ c ∈ "⛶↓Копия".toList, c ∈ ownLetters :=
    forall_mem_of_all (by decide +kernel)
  exact own c among

/-- A composed text of a source without the letter of the markers has none. -/
theorem Tame.solid_composed (tame : Tame lib source) {html : Text}
    (composed : Composed (Rendered (Shown source) (PageTag lib source)) html) : '\x00' ∉ html := by
  have none := solid_shown tame.solid
  refine composed_solid composed none ?_ ?_
  · intro text among zero
    obtain ⟨block, listed, inside⟩ := List.mem_flatMap.mp among
    exact none (arranged_known tame.arranged block listed text inside _ zero)
  · intro block fenced
    obtain ⟨lang, code⟩ := shown_fence block fenced
    exact ⟨fun zero => none (lang _ zero), fun zero => none (code _ zero)⟩

/-- The page is its blocks, with the fences in the places of their markers. -/
theorem Tame.page (tame : Tame lib source) :
    readerHtml lib source =
      joinLines (arrange lib (fencesOf lib source) (pageBlocks lib source)) := by
  have coded : ∀ block ∈ fencesOf lib source, '\x00' ∉ codeBlock block :=
    fun block fenced => tame.solid_composed (composed_fence block fenced)
  obtain ⟨slots, same⟩ := arranged_filled tame.arranged rfl
    (fun block among plain => tame.solid_composed (tame.composed_plain block among plain)) coded
  have solid : ∀ text ∈ (fencesOf lib source).map codeBlock, '\x00' ∉ text := by
    intro text among
    obtain ⟨block, listed, rfl⟩ := List.mem_map.mp among
    exact coded block listed
  change restore ((fencesOf lib source).map codeBlock) _ = _
  rw [restore_lines solid slots, same, List.drop_zero]

end

/-! ## A page in the ASCII letters -/

/-- `html.unescape` on the entities that `html.escape` writes. -/
def readEntity (_ : Option Char) (text : Text) : Option (Nat × Text) :=
  (special.find? fun c => (escapeChar c).isPrefixOf text).map fun c => ((escapeChar c).length, [c])

theorem readEntity_plain {c : Char} (plain : entity? c = none) (before : Option Char)
    (rest : Text) : readEntity before (c :: rest) = none := by
  unfold readEntity
  rw [Option.map_eq_none_iff, List.find?_eq_none]
  intro letter listed front
  have opens : ∀ c ∈ special, (escapeChar c).head? = some '&' :=
    forall_mem_of_all (by decide +kernel)
  obtain ⟨behind, same⟩ := List.isPrefixOf_iff_prefix.mp front
  have head := congrArg List.head? same
  rw [List.head?_append_of_ne_nil _ (by
    intro none
    have := opens letter listed
    rw [none] at this
    cases this), opens letter listed] at head
  cases Option.some.inj head
  cases plain

theorem readEntity_escapeChar {c : Char} (listed : c ∈ special) (before : Option Char)
    (rest : Text) : readEntity before (escapeChar c ++ rest) =
      some ((escapeChar c).length, [c]) := by
  simp only [special, List.mem_cons, List.not_mem_nil, or_false] at listed
  rcases listed with rfl | rfl | rfl | rfl | rfl <;> rfl

theorem readEntity_escape (text : Text) : resub readEntity 0 none (escape text) = text := by
  induction text with
  | nil => rfl
  | cons c rest ih =>
    change resub readEntity 0 none (escapeChar c ++ escape rest) = c :: rest
    have behind : ∀ before, resub readEntity 0 before (escape rest) = rest := by
      intro before
      rw [resub_before (fun _ _ _ => rfl) before none, ih]
    cases found : entity? c with
    | none =>
      rw [escapeChar, found]
      change resub readEntity 0 none (c :: escape rest) = c :: rest
      rw [resub, readEntity_plain found, behind]
    | some written =>
      have read := readEntity_escapeChar
        (mem_special_of_entity? (by rw [found]; rfl : (entity? c).isSome = true)) none
        (escape rest)
      cases shape : escapeChar c with
      | nil =>
        have long : ∀ text ∈ entities, text ≠ [] := by decide +kernel
        exact absurd shape (long _ (mem_entities_of_isSome (by rw [found]; rfl)))
      | cons first body =>
        rw [shape, List.cons_append] at read
        rw [List.cons_append, resub, read]
        dsimp only
        obtain ⟨last, skipped⟩ := @resub_skip Char readEntity ((first :: body).length - 1)
          (some first) (body ++ escape rest)
        rw [skipped, List.length_cons, Nat.add_sub_cancel, List.drop_left, behind]
        rfl

/-- The library on ASCII letters. -/
def asciiLibrary : Library where
  python := ⟨Char.isAlphanum, agrees_below, []⟩
  isDecimal := Char.isDigit
  lower := List.map Char.toLower
  unescape := resub readEntity 0 none
  splits := fun _ => true
  unescape_escape := readEntity_escape
  ascii := agrees_below

instance (lib : Library) (text : Text) : Decidable (CleanLinks lib text) :=
  inferInstanceAs (Decidable (∀ _ ∈ _, _))

def note : Text :=
  ("# A <b> heading\n\n- **x** & [site](https://a.b)\n```py\nif x < 1:\n```\n" ++
    "[no](javascript:run)").toList

/-- Text behind a closing fence is written as it is. -/
def smuggled : Text := "```\n```<script>alert(1)</script>".toList

end BobbyBotique.Reader
