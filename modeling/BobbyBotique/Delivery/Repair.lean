import BobbyBotique.Delivery.Chunks

/-!
# Repaired texts

A text in which every `<` starts a tag is a word of letters and tags.  The
repair of the word reads as a nested word with the tags of the text around every
letter, and the pairs that are dropped from it enclose no letter.
-/

namespace BobbyBotique.Delivery

/-- What ends the name of a tag. -/
def endsName (c : Char) : Bool := c == '>' || isSpace c

/-- A tag of `_TAG_RE` with one `<`, at its front. -/
structure Tag.Known (tag : Tag) : Prop where
  named : tag.name ∈ tagNames
  full : ∃ tail : List Char,
    tag.full = '<' :: ((if tag.closing then ['/'] else []) ++ tag.name ++ tail) ∧
      ∀ rest, tagTail (tail ++ rest) = some tail
  single : '<' ∉ tag.full.tail

/-- The letters and tags `finditer` passes, `skip` characters behind the front. -/
def tokens : Nat → List Char → List Html
  | _, [] => []
  | skip + 1, _ :: rest => tokens skip rest
  | 0, c :: rest =>
    match knownTagAt (c :: rest) with
    | some tag => .tag tag :: tokens (tag.full.length - 1) rest
    | none => .letter c :: tokens 0 rest

/-- The token holds no `<` but the one a tag starts with. -/
def Starts : Html → Prop
  | .letter c => c ≠ '<'
  | .tag tag => '<' ∉ tag.full.tail

/-- Every `<` of the text starts a token of `_TAG_RE`. -/
def EachStarts (text : List Char) : Prop := ∀ token ∈ tokens 0 text, Starts token

/-- The letters outside the tags. -/
def plainText : List Html → List Char
  | [] => []
  | .letter c :: rest => c :: plainText rest
  | .tag _ :: rest => plainText rest

/-- The tags that are open behind a tag: it closes the last one of its name. -/
def openBehind (stack : List Tag) (tag : Tag) : List Tag :=
  if !tag.closing then tag :: stack
  else stack.eraseP fun opening => decide (opening.name = tag.name)

/-- The letters with the tags that are open at them. -/
def enclosing : List Tag → List Html → List (Char × List Tag)
  | _, [] => []
  | stack, .letter c :: rest => (c, stack) :: enclosing stack rest
  | stack, .tag tag :: rest => enclosing (openBehind stack tag) rest

/-- A letter that is no `<`, or a tag of `_TAG_RE`. -/
def Whole : Html → Prop
  | .letter c => c ≠ '<'
  | .tag tag => tag.Known

/-! ## Reading the tokens -/

section Reading

variable {tag : Tag} {html : List Html}

/-- The end of a name is followed by whatever ends the tag. -/
theorem tagTail_some {text tail : List Char} (found : tagTail text = some tail) :
    ∃ front inner rest, tail = front :: inner ∧ text = tail ++ rest ∧ endsName front = true ∧
      ∀ rest, tagTail (tail ++ rest) = some tail := by
  cases text with
  | nil => cases found
  | cons c text =>
    rw [tagTail] at found
    by_cases close : c = '>'
    · subst close
      rw [if_pos rfl] at found
      cases found
      exact ⟨'>', [], text, rfl, rfl, rfl, fun rest => rfl⟩
    · rw [if_neg close] at found
      by_cases blank : isSpace c = true
      · rw [if_pos blank] at found
        have parts := @List.takeWhile_append_dropWhile _ (fun c => decide (c ≠ '>')) text
        have inside : ∀ each ∈ text.takeWhile fun c => decide (c ≠ '>'),
            decide (each ≠ '>') = true := by
          intro each member
          exact List.mem_takeWhile_imp (p := fun c => decide (c ≠ '>')) member
        cases behind : text.dropWhile fun c => decide (c ≠ '>') with
        | nil =>
          rw [behind] at found
          cases found
        | cons last rest =>
          have ends := List.head?_dropWhile_not (fun c => decide (c ≠ '>')) text
          rw [behind] at ends parts found
          simp only [List.head?_cons, decide_not, Bool.not_eq_false', decide_eq_true_eq] at ends
          cases found
          subst ends
          refine ⟨c, _, rest, rfl, ?_, ?_, ?_⟩
          · rw [List.append_assoc, List.cons_append, List.singleton_append, parts]
          · rw [endsName, blank, Bool.or_true]
          · intro rest
            generalize (text.takeWhile fun c => decide (c ≠ '>')) = attributes at inside
            have stops := @takeWhile_stops Char (fun c => decide (c ≠ '>')) attributes
              ('>' :: rest) inside (by
                intro each head
                cases head
                rfl)
            rw [List.append_assoc, List.cons_append, List.singleton_append, tagTail,
              if_neg close, if_pos blank, stops.1, stops.2]
      · rw [if_neg blank] at found
        cases found

theorem tagNames_solid : ∀ name ∈ tagNames, ∀ c ∈ name, endsName c = false ∧ c ≠ '/' ∧ c ≠ '<' := by
  have checked : tagNames.all (fun name => name.all fun c =>
    decide (endsName c = false ∧ c ≠ '/' ∧ c ≠ '<')) = true := by decide
  intro name member c letter
  exact of_decide_eq_true (List.all_eq_true.mp (List.all_eq_true.mp checked name member) c letter)

theorem tagNames_ne_nil : ∀ name ∈ tagNames, name ≠ [] := forall_mem_of_all (by decide)

/-- The name of a tag stands before the first letter that ends a name. -/
theorem name_front {name tail rest : List Char} (named : name ∈ tagNames)
    (ends : ∃ front inner, tail = front :: inner ∧ endsName front = true) :
    (name ++ tail ++ rest).takeWhile (fun c => !endsName c) = name := by
  obtain ⟨front, inner, rfl, ends⟩ := ends
  rw [List.append_assoc]
  refine (takeWhile_stops ?_ ?_).1
  · intro c letter
    rw [(tagNames_solid name named c letter).1]
    rfl
  · intro c head
    cases head
    rw [ends]
    rfl

theorem findSome?_unique {A B : Type} {choose : A → Option B} {value : B} {list : List A}
    {each : A} (member : each ∈ list) (chosen : choose each = some value)
    (only : ∀ other ∈ list, ∀ found, choose other = some found → found = value) :
    list.findSome? choose = some value := by
  cases found : list.findSome? choose with
  | none => rw [List.findSome?_eq_none_iff.mp found each member] at chosen; cases chosen
  | some result =>
    obtain ⟨other, inside, same⟩ := List.exists_of_findSome?_eq_some found
    rw [only other inside result same]

/-- The tag a name and its tail make. -/
def tagOf (closing : Bool) (name tail : List Char) : Tag :=
  ⟨closing, name, '<' :: ((if closing then ['/'] else []) ++ name ++ tail)⟩

/-- The match behind the angle bracket and the slash. -/
theorem findSome?_tag {closing : Bool} {name tail rest : List Char} (named : name ∈ tagNames)
    (tailed : ∀ rest, tagTail (tail ++ rest) = some tail) :
    (tagNames.findSome? fun each =>
      if each.isPrefixOf (name ++ tail ++ rest) then
        (tagTail ((name ++ tail ++ rest).drop each.length)).map (tagOf closing each)
      else none) = some (tagOf closing name tail) := by
  have front : ∃ front inner, tail = front :: inner ∧ endsName front = true := by
    obtain ⟨front, inner, _, same, _, ends, _⟩ := tagTail_some (tailed [])
    exact ⟨front, inner, same, ends⟩
  refine findSome?_unique named ?_ ?_
  · rw [if_pos (by rw [List.isPrefixOf_iff_prefix, List.append_assoc]; exact ⟨_, rfl⟩),
      List.append_assoc, List.drop_left, tailed, Option.map_some]
  · intro other known found chosen
    split at chosen
    · next starts =>
        obtain ⟨behind, same⟩ := List.isPrefixOf_iff_prefix.mp starts
        obtain ⟨written, read, rfl⟩ := Option.map_eq_some_iff.mp chosen
        rw [← same, List.drop_left] at read
        obtain ⟨first, inner, left, cut, parts, ends, _⟩ := tagTail_some read
        -- Both names reach to the first letter that ends a name.
        have names : other = name := by
          rw [← @name_front name tail rest named front, ← same, parts, ← List.append_assoc]
          exact (name_front known ⟨first, inner, cut, ends⟩).symm
        subst names
        rw [List.append_assoc] at same
        have tails := tailed rest
        rw [← List.append_cancel_left same, read] at tails
        rw [Option.some.inj tails]
    · cases chosen

/-- A tag with one angle bracket is found where it stands. -/
theorem knownTagAt_known (known : tag.Known) (rest : List Char) :
    knownTagAt (tag.full ++ rest) = some tag := by
  obtain ⟨tail, full, tailed⟩ := known.full
  have same : tag = tagOf tag.closing tag.name tail := by
    unfold tagOf
    rw [← full]
  rw [same]
  have found := @findSome?_tag tag.closing tag.name tail rest known.named tailed
  cases closing : tag.closing with
  | true =>
    rw [closing] at found
    exact found
  | false =>
    rw [closing] at found
    have opening : ((tag.name ++ tail ++ rest).head? == some '/') = false := by
      cases parts : tag.name with
      | nil => exact absurd parts (tagNames_ne_nil _ known.named)
      | cons c others =>
        have letter := (tagNames_solid _ known.named c (by rw [parts]; simp)).2.1
        exact beq_false_of_ne fun head => letter (Option.some.inj head)
    change knownTagAt ('<' :: (tag.name ++ tail ++ rest)) = _
    simp only [knownTagAt, opening, Bool.false_eq_true, if_false]
    exact found

theorem findSome?_some {closing : Bool} {body : List Char}
    (found : (tagNames.findSome? fun each =>
      if each.isPrefixOf body then (tagTail (body.drop each.length)).map (tagOf closing each)
      else none) = some tag) :
    ∃ tail rest, body = tag.name ++ tail ++ rest ∧ tag.name ∈ tagNames ∧ tag.closing = closing ∧
      tag.full = '<' :: ((if closing then ['/'] else []) ++ tag.name ++ tail) ∧
        ∀ rest, tagTail (tail ++ rest) = some tail := by
  obtain ⟨name, named, chosen⟩ := List.exists_of_findSome?_eq_some found
  split at chosen
  · next starts =>
      obtain ⟨behind, same⟩ := List.isPrefixOf_iff_prefix.mp starts
      obtain ⟨tail, read, rfl⟩ := Option.map_eq_some_iff.mp chosen
      rw [← same, List.drop_left] at read
      obtain ⟨_, _, rest, _, parts, _, tailed⟩ := tagTail_some read
      refine ⟨tail, rest, ?_, named, rfl, rfl, tailed⟩
      rw [← same, parts, ← List.append_assoc]
      rfl
  · cases chosen

/-- What is found is a tag at the front. -/
theorem knownTagAt_some {text : List Char} (found : knownTagAt text = some tag) :
    ∃ tail rest, text = tag.full ++ rest ∧ tag.name ∈ tagNames ∧
      tag.full = '<' :: ((if tag.closing then ['/'] else []) ++ tag.name ++ tail) ∧
        ∀ rest, tagTail (tail ++ rest) = some tail := by
  unfold knownTagAt at found
  split at found
  · next text =>
      dsimp only at found
      cases slash : text.head? == some '/' with
      | false =>
        rw [slash] at found
        obtain ⟨tail, rest, same, named, opening, full, tailed⟩ := findSome?_some found
        refine ⟨tail, rest, ?_, named, by rw [opening, full], tailed⟩
        rw [full]
        simp only [Bool.false_eq_true, if_false] at same ⊢
        rw [same]
        simp
      | true =>
        rw [slash] at found
        obtain ⟨tail, rest, same, named, closing, full, tailed⟩ := findSome?_some found
        refine ⟨tail, rest, ?_, named, by rw [closing, full], tailed⟩
        rw [full]
        cases text with
        | nil => cases slash
        | cons first text =>
          have first' : first = '/' := Option.some.inj (eq_of_beq slash)
          subst first'
          simp only [if_true, List.tail_cons] at same ⊢
          rw [same]
          simp
  · cases found

theorem knownTagAt_letter {c : Char} (plain : c ≠ '<') (rest : List Char) :
    knownTagAt (c :: rest) = none := by
  cases found : knownTagAt (c :: rest) with
  | none => rfl
  | some tag =>
    obtain ⟨_, _, same, _, full, _⟩ := knownTagAt_some found
    rw [full] at same
    exact absurd (List.cons.inj same).1 plain

theorem tokens_skip (skipped rest : List Char) :
    tokens skipped.length (skipped ++ rest) = tokens 0 rest := by
  induction skipped with
  | nil => rfl
  | cons c others ih => exact ih

/-- The tokens behind a tag that is found. -/
theorem tokens_tag {rest : List Char} (found : knownTagAt (tag.full ++ rest) = some tag) :
    tokens 0 (tag.full ++ rest) = .tag tag :: tokens 0 rest := by
  obtain ⟨_, _, _, _, full, _⟩ := knownTagAt_some found
  cases same : tag.full with
  | nil =>
    rw [full] at same
    cases same
  | cons c others =>
    rw [same, List.cons_append] at found
    rw [List.cons_append, tokens, found]
    dsimp only
    rw [same, List.length_cons, Nat.add_sub_cancel, tokens_skip]

/-- The tokens of a word of letters and tags. -/
theorem tokens_render (whole : ∀ token ∈ html, Whole token) : tokens 0 (render html) = html := by
  induction html with
  | nil => rfl
  | cons token rest ih =>
    obtain ⟨head, tail⟩ := List.forall_mem_cons.mp whole
    rw [render_cons]
    cases token with
    | letter c =>
      change tokens 0 (c :: render rest) = _
      rw [tokens, knownTagAt_letter head, ih tail]
    | tag tag =>
      change tokens 0 (tag.full ++ render rest) = _
      rw [tokens_tag (knownTagAt_known head _), ih tail]

/-- The tokens are those of the text. -/
theorem render_tokens (text : List Char) : render (tokens 0 text) = text := by
  generalize size : text.length = bound
  induction bound using Nat.strongRecOn generalizing text with
  | ind bound ih =>
    subst size
    cases text with
    | nil => rfl
    | cons c text =>
      cases found : knownTagAt (c :: text) with
      | none =>
        rw [tokens, found, render_cons, ih text.length (Nat.lt_succ_self _) text rfl]
        rfl
      | some tag =>
        obtain ⟨_, rest, same, _, full, _⟩ := knownTagAt_some found
        rw [same] at found ⊢
        rw [tokens_tag found, render_cons, ih rest.length ?_ rest rfl]
        · rfl
        · rw [same, full, List.length_append, List.length_cons]
          omega

/-- In a text whose angle brackets all start tokens the tokens are whole. -/
theorem EachStarts.whole {text : List Char} (starts : EachStarts text) :
    ∀ token ∈ tokens 0 text, Whole token := by
  have tags : ∀ tag, .tag tag ∈ tokens 0 text → ∃ front, knownTagAt front = some tag := by
    intro tag
    clear starts
    generalize 0 = skip
    induction text generalizing skip with
    | nil => cases skip <;> exact fun absurd => nomatch absurd
    | cons c rest ih =>
      intro member
      cases skip with
      | succ skip => exact ih skip member
      | zero =>
        rw [tokens] at member
        split at member
        · next found =>
            rcases List.mem_cons.mp member with same | later
            · cases same
              exact ⟨_, found⟩
            · exact ih _ later
        · rcases List.mem_cons.mp member with same | later
          · cases same
          · exact ih _ later
  intro token member
  have single := starts token member
  cases token with
  | letter c => exact single
  | tag tag =>
    obtain ⟨front, found⟩ := tags tag member
    obtain ⟨tail, _, _, named, full, tailed⟩ := knownTagAt_some found
    exact ⟨named, ⟨tail, full, tailed⟩, single⟩

/-- A text of whole tokens. -/
theorem eachStarts_render (whole : ∀ token ∈ html, Whole token) : EachStarts (render html) := by
  unfold EachStarts
  rw [tokens_render whole]
  intro token member
  have known := whole token member
  cases token with
  | letter c => exact known
  | tag tag => exact known.single

end Reading

/-! ## The repaired word -/

/-- What is written for a tag. -/
def repairedTag (stack : List Tag) (tag : Tag) : List Html :=
  if !tag.closing then [.tag tag]
  else if stack.any fun opening => decide (opening.name = tag.name) then
    let between := stack.takeWhile fun opening => decide (opening.name ≠ tag.name)
    (between.map fun opening => .tag opening.close) ++ .tag tag :: between.reverse.map Token.tag
  else []

/-- What is written for a word of letters and tags. -/
def repaired : List Tag → List Html → List Html
  | stack, [] => stack.map fun opening => .tag opening.close
  | stack, .letter c :: rest => .letter c :: repaired stack rest
  | stack, .tag tag :: rest => repairedTag stack tag ++ repaired (openBehind stack tag) rest

/-- An opening tag of `_TAG_RE`. -/
structure Tag.Opening (tag : Tag) : Prop where
  known : tag.Known
  opening : tag.closing = false

section Repairing

variable {tag : Tag} {stack : List Tag} {html : List Html}

/-- A stack is cut at the last tag with a name. -/
theorem stack_parts {name : List Char}
    (found : (stack.any fun opening => decide (opening.name = name)) = true) :
    ∃ between top outer, stack = between ++ top :: outer ∧ top.name = name ∧
      (stack.takeWhile fun opening => decide (opening.name ≠ name)) = between ∧
      (stack.dropWhile fun opening => decide (opening.name ≠ name)) = top :: outer ∧
      (stack.eraseP fun opening => decide (opening.name = name)) = between ++ outer := by
  induction stack with
  | nil => cases found
  | cons head rest ih =>
    by_cases same : head.name = name
    · refine ⟨[], head, rest, rfl, same, ?_, ?_, ?_⟩
      · exact List.takeWhile_cons_of_neg (by simp [same])
      · exact List.dropWhile_cons_of_neg (by simp [same])
      · exact List.eraseP_cons_of_pos (by simp [same])
    · rw [List.any_cons, decide_eq_false same, Bool.false_or] at found
      obtain ⟨between, top, outer, parts, named, taken, dropped, erased⟩ := ih found
      refine ⟨head :: between, top, outer, by rw [parts]; rfl, named, ?_, ?_, ?_⟩
      · rw [List.takeWhile_cons_of_pos (by simp [same]), taken]
      · rw [List.dropWhile_cons_of_pos (by simp [same]), dropped]
      · rw [List.eraseP_cons_of_neg (by simp [same]), erased]
        rfl

theorem repairTag_eq (stack : List Tag) (tag : Tag) :
    repairTag stack tag = (openBehind stack tag, render (repairedTag stack tag)) := by
  unfold repairTag openBehind repairedTag
  cases tag.closing with
  | false => simp [tokenText]
  | true =>
    simp only [Bool.not_true, Bool.false_eq_true, if_false]
    split
    · next found =>
        obtain ⟨between, top, outer, _, _, taken, dropped, erased⟩ := stack_parts found
        rw [taken, dropped, erased]
        simp only [render_append, render_cons, render_closers, render_openers, tokenText,
          List.tail_cons, List.append_assoc]
    · next absent =>
        rw [List.eraseP_of_forall_not]
        · rfl
        · intro opening member same
          exact absent (List.any_eq_true.mpr ⟨opening, member, same⟩)

theorem repair_skip (skipped : List Char) (stack : List Tag) (rest : List Char) :
    repair skipped.length stack (skipped ++ rest) = repair 0 stack rest := by
  induction skipped with
  | nil => rfl
  | cons c others ih => exact ih

/-- The repair walks over the tokens of a text. -/
theorem repair_render (whole : ∀ token ∈ html, Whole token) (stack : List Tag) :
    repair 0 stack (render html) = render (repaired stack html) := by
  induction html generalizing stack with
  | nil => exact (render_closers stack).symm
  | cons token rest ih =>
    obtain ⟨head, tail⟩ := List.forall_mem_cons.mp whole
    rw [render_cons]
    cases token with
    | letter c =>
      change repair 0 stack (c :: render rest) = _
      rw [repair, knownTagAt_letter head, repaired, render_cons, ih tail]
      rfl
    | tag tag =>
      change repair 0 stack (tag.full ++ render rest) = _
      have found := knownTagAt_known head (render rest)
      obtain ⟨others, full⟩ : ∃ others, tag.full = '<' :: others := by
        obtain ⟨tail, full, _⟩ := head.full
        exact ⟨_, full⟩
      rw [full, List.cons_append] at found ⊢
      rw [repair, found]
      dsimp only
      rw [repairTag_eq, full, List.length_cons, Nat.add_sub_cancel, repair_skip, ih tail,
        repaired, render_append]

theorem Tag.Known.role (known : tag.Known) :
    htmlTags.role tag = if tag.closing then .closes else .opens := by
  have solid : ∀ name ∈ tagNames,
      ¬ (name = "br".toList ∨ name = "img".toList ∨ name = "hr".toList) :=
    forall_mem_of_all (by decide)
  exact if_neg (solid tag.name known.named)

theorem Tag.Opening.role (opening : tag.Opening) : htmlTags.role tag = .opens := by
  rw [opening.known.role, opening.opening]
  rfl

theorem Tag.Known.closing_eq (known : tag.Known) {closing : Bool}
    (role : htmlTags.role tag = if closing then .closes else .opens) : tag.closing = closing := by
  rw [known.role] at role
  revert role
  cases tag.closing <;> cases closing <;> decide

theorem Tag.Known.close (known : tag.Known) : tag.close.Known where
  named := known.named
  full := ⟨['>'], by simp [Tag.close], fun rest => rfl⟩
  single := by
    intro member
    change '<' ∈ '/' :: (tag.name ++ ['>']) at member
    rcases List.mem_cons.mp member with slash | member
    · cases slash
    · rcases List.mem_append.mp member with letter | last
      · exact (tagNames_solid _ known.named '<' letter).2.2 rfl
      · cases List.mem_singleton.mp last

theorem openBehind_opening (all : ∀ opening ∈ stack, opening.Opening) (known : tag.Known) :
    ∀ opening ∈ openBehind stack tag, opening.Opening := by
  intro opening member
  unfold openBehind at member
  cases closing : tag.closing with
  | false =>
    rw [closing] at member
    rcases List.mem_cons.mp member with rfl | member
    · exact ⟨known, closing⟩
    · exact all opening member
  | true =>
    rw [closing] at member
    exact all opening (List.mem_of_mem_eraseP member)

/-- What is written for a tag leads from the stack before it to the stack behind it. -/
theorem repairedTag_reads (all : ∀ opening ∈ stack, opening.Opening) (known : tag.Known) :
    Reads htmlTags stack (repairedTag stack tag) [] (openBehind stack tag) := by
  have role := known.role
  unfold repairedTag openBehind
  cases closing : tag.closing with
  | false =>
    rw [closing] at role
    exact .opens role (.nil _)
  | true =>
    rw [closing] at role
    simp only [Bool.not_true, Bool.false_eq_true, if_false]
    split
    · next found =>
        obtain ⟨between, top, outer, parts, named, taken, _, erased⟩ := stack_parts found
        rw [taken, erased]
        have opens : ∀ opening ∈ between, htmlTags.role opening = .opens := by
          intro opening member
          exact (all opening (by rw [parts]; exact List.mem_append_left _ member)).role
        have closes := @Reads.closed Char Tag htmlTags (top :: outer) Tag.close between
          fun opening member => close_pairs opening (opens opening member)
        have opened := @Reads.reopened Char Tag htmlTags outer between opens
        rw [parts]
        exact closes.append (.closes role named opened)
    · next absent =>
        rw [List.eraseP_of_forall_not]
        · exact .nil stack
        · intro opening member same
          exact absent (List.any_eq_true.mpr ⟨opening, member, same⟩)

/-- The repaired word is nested, and its letters keep the tags around them. -/
theorem repaired_reads (whole : ∀ token ∈ html, Whole token)
    (all : ∀ opening ∈ stack, opening.Opening) :
    Reads htmlTags stack (repaired stack html) (enclosing stack html) [] := by
  induction html generalizing stack with
  | nil =>
    have closes := @Reads.closed Char Tag htmlTags [] Tag.close stack
      fun opening member => close_pairs opening (all opening member).role
    rwa [List.append_nil] at closes
  | cons token rest ih =>
    obtain ⟨head, tail⟩ := List.forall_mem_cons.mp whole
    cases token with
    | letter c => exact .letter c (ih tail all)
    | tag tag => exact (repairedTag_reads all head).append (ih tail (openBehind_opening all head))

theorem repairedTag_whole (all : ∀ opening ∈ stack, opening.Opening) (known : tag.Known) :
    ∀ token ∈ repairedTag stack tag, Whole token := by
  have inside : ∀ opening ∈ stack.takeWhile fun opening => decide (opening.name ≠ tag.name),
      opening.Known := by
    intro opening member
    exact (all opening ((List.takeWhile_sublist _).subset member)).known
  intro token member
  unfold repairedTag at member
  split at member
  · rw [List.mem_singleton.mp member]
    exact known
  · split at member
    · rcases List.mem_append.mp member with member | member
      · obtain ⟨opening, among, rfl⟩ := List.mem_map.mp member
        exact (inside opening among).close
      · rcases List.mem_cons.mp member with rfl | member
        · exact known
        · obtain ⟨opening, among, rfl⟩ := List.mem_map.mp member
          exact inside opening (List.mem_reverse.mp among)
    · cases member

theorem repaired_whole (whole : ∀ token ∈ html, Whole token)
    (all : ∀ opening ∈ stack, opening.Opening) : ∀ token ∈ repaired stack html, Whole token := by
  induction html generalizing stack with
  | nil =>
    intro token member
    obtain ⟨opening, among, rfl⟩ := List.mem_map.mp member
    exact (all opening among).known.close
  | cons token rest ih =>
    obtain ⟨head, tail⟩ := List.forall_mem_cons.mp whole
    cases token with
    | letter c => exact List.forall_mem_cons.mpr ⟨head, ih tail all⟩
    | tag tag =>
      intro other member
      rcases List.mem_append.mp member with member | member
      · exact repairedTag_whole all head other member
      · exact ih tail (openBehind_opening all head) other member

/-- A nested word needs no repair. -/
theorem repaired_nested {letters : List (Char × List Tag)} (whole : ∀ token ∈ html, Whole token)
    (reads : Reads htmlTags stack html letters []) : repaired stack html = html := by
  generalize final : ([] : List Tag) = after at reads
  induction reads with
  | nil => rw [← final]; rfl
  | letter letter _ ih =>
    rw [repaired, ih (List.forall_mem_cons.mp whole).2 final]
  | @stands stack after word letters tag role _ ih =>
    have known : tag.Known := (List.forall_mem_cons.mp whole).1
    rw [known.role] at role
    split at role <;> cases role
  | @opens stack after word letters tag role _ ih =>
    obtain ⟨known, tail⟩ := List.forall_mem_cons.mp whole
    have opening : tag.closing = false := Tag.Known.closing_eq known role
    rw [repaired, repairedTag, openBehind, opening]
    simp [ih tail final]
  | @closes stack after word letters tag top role pair _ ih =>
    obtain ⟨known, tail⟩ := List.forall_mem_cons.mp whole
    have closing : tag.closing = true := Tag.Known.closing_eq known role
    have named : top.name = tag.name := pair
    rw [repaired, repairedTag, openBehind, closing]
    simp [named, ih tail final]

end Repairing

/-! ## Pairs that enclose nothing -/

section Pairs

variable {tag : Tag} {stack : List Tag} {html : List Html} {letters : List (Char × List Tag)}

/-- The word without its pairs that stand without anything between them. -/
def withoutPairs : List Html → List Html
  | .tag opening :: .tag closing :: rest =>
    if opening.closing = false ∧ closing = opening.close then withoutPairs rest
    else .tag opening :: withoutPairs (.tag closing :: rest)
  | token :: rest => token :: withoutPairs rest
  | [] => []

theorem withoutPairs_single {token : Html} {rest : List Html}
    (single : ∀ opening closing behind, token = .tag opening → rest = .tag closing :: behind →
      False) : withoutPairs (token :: rest) = token :: withoutPairs rest := by
  rw [withoutPairs]
  exact single

theorem close_front (tag : Tag) (rest : List Char) :
    (("</".toList ++ tag.name ++ ">".toList).isPrefixOf rest = true) ↔
      ∃ behind, rest = tag.close.full ++ behind := by
  rw [List.isPrefixOf_iff_prefix]
  constructor
  · rintro ⟨behind, same⟩
    exact ⟨behind, same.symm⟩
  · rintro ⟨behind, rfl⟩
    exact ⟨behind, rfl⟩

/-- The closing tag stands in front of a text when it is its first token. -/
theorem front_tag (known : tag.Known) (whole : ∀ token ∈ html, Whole token) :
    (∃ behind, render html = tag.full ++ behind) ↔ ∃ rest, html = .tag tag :: rest := by
  constructor
  · rintro ⟨behind, same⟩
    have read := tokens_render whole
    rw [same, tokens_tag (knownTagAt_known known behind)] at read
    exact ⟨_, read.symm⟩
  · rintro ⟨rest, rfl⟩
    exact ⟨render rest, render_cons _ _⟩

/-- The match at an opening tag that is closed at once. -/
theorem emptyPair_pair (opening : tag.Opening) (before : Option Char) (rest : List Char) :
    emptyPair before (tag.full ++ (tag.close.full ++ rest)) =
      some (tag.full.length + tag.close.full.length, []) := by
  unfold emptyPair
  rw [knownTagAt_known opening.known]
  dsimp only
  rw [opening.opening, if_neg Bool.false_ne_true, List.drop_left,
    if_pos ((close_front tag _).mpr ⟨rest, rfl⟩)]
  rfl

/-- No match starts at another tag. -/
theorem emptyPair_tag (known : tag.Known) (whole : ∀ token ∈ html, Whole token)
    (other : ¬ (tag.closing = false ∧ ∃ rest, html = .tag tag.close :: rest))
    (before : Option Char) : emptyPair before (tag.full ++ render html) = none := by
  unfold emptyPair
  rw [knownTagAt_known known]
  dsimp only
  cases opening : tag.closing with
  | true => rfl
  | false =>
    rw [if_neg Bool.false_ne_true, List.drop_left, if_neg]
    intro front
    exact other ⟨opening, (front_tag known.close whole).mp ((close_front tag _).mp front)⟩

theorem emptyPair_erases (before : Option Char) (text : List Char) (length : Nat)
    (replacement : List Char) (found : emptyPair before text = some (length, replacement)) :
    replacement = [] := by
  unfold emptyPair at found
  split at found
  · cases found
  · dsimp only at found
    split at found
    · cases found
    · split at found
      · cases found
        rfl
      · cases found

theorem emptyPair_letter {c : Char} (plain : c ≠ '<') (before : Option Char) (rest : List Char) :
    emptyPair before (c :: rest) = none := by
  unfold emptyPair
  rw [knownTagAt_letter plain]

/-- A tag at which no match starts is kept. -/
theorem resub_tag (known : tag.Known) {rest : List Char} {before : Option Char}
    (passes : emptyPair before (tag.full ++ rest) = none) :
    ∃ last, resub emptyPair 0 before (tag.full ++ rest) =
      tag.full ++ resub emptyPair 0 last rest := by
  obtain ⟨tail, full, _⟩ := known.full
  have single := known.single
  generalize (if tag.closing then ['/'] else []) ++ tag.name ++ tail = inner at full
  rw [full] at passes single ⊢
  obtain ⟨last, same⟩ := @resub_pass Char emptyPair inner (fun c member before rest =>
    emptyPair_letter (fun angle => single (angle ▸ member)) before rest) (some '<') rest
  refine ⟨last, ?_⟩
  rw [List.cons_append, resub, ← List.cons_append, passes, same]
  rfl

/-- A round of the substitution takes the pairs out of a word. -/
theorem resub_render (whole : ∀ token ∈ html, Whole token) (before : Option Char) :
    resub emptyPair 0 before (render html) = render (withoutPairs html) := by
  induction html using withoutPairs.induct generalizing before with
  | case1 opening closing rest pair ih =>
    obtain ⟨head, behind⟩ := List.forall_mem_cons.mp whole
    obtain ⟨opens, rfl⟩ := pair
    rw [withoutPairs, if_pos ⟨opens, rfl⟩, render_cons, render_cons]
    change resub emptyPair 0 before (opening.full ++ (opening.close.full ++ render rest)) = _
    have found := emptyPair_pair ⟨head, opens⟩ before (render rest)
    obtain ⟨tail, full, _⟩ := Tag.Known.full head
    generalize (if opening.closing then ['/'] else []) ++ opening.name ++ tail = inner at full
    rw [full, List.cons_append] at found ⊢
    rw [resub, found]
    dsimp only
    rw [List.nil_append]
    obtain ⟨last, skipped⟩ := @resub_skip Char emptyPair
      (('<' :: inner).length + opening.close.full.length - 1) (some '<')
      (inner ++ (opening.close.full ++ render rest))
    have dropped : (inner ++ (opening.close.full ++ render rest)).drop
        (('<' :: inner).length + opening.close.full.length - 1) = render rest := by
      rw [← List.append_assoc]
      refine List.drop_left' ?_
      rw [List.length_append, List.length_cons]
      omega
    rw [skipped, dropped]
    exact ih (List.forall_mem_cons.mp behind).2 last
  | case2 opening closing rest apart ih =>
    obtain ⟨head, behind⟩ := List.forall_mem_cons.mp whole
    rw [withoutPairs, if_neg apart, render_cons, render_cons]
    obtain ⟨last, same⟩ := resub_tag head (emptyPair_tag head behind (by
      rintro ⟨opens, others, same⟩
      cases same
      exact apart ⟨opens, rfl⟩) before)
    exact same.trans (congrArg _ (ih behind last))
  | case3 token rest single ih =>
    obtain ⟨head, behind⟩ := List.forall_mem_cons.mp whole
    rw [withoutPairs_single single, render_cons, render_cons]
    cases token with
    | letter c =>
      change resub emptyPair 0 before (c :: render rest) = _
      rw [resub, emptyPair_letter head]
      exact congrArg _ (ih behind _)
    | tag tag =>
      obtain ⟨last, same⟩ := resub_tag head (emptyPair_tag head behind (by
        rintro ⟨_, others, same⟩
        exact single tag tag.close others rfl same) before)
      exact same.trans (congrArg _ (ih behind last))
  | case4 => rfl

theorem withoutPairs_whole (whole : ∀ token ∈ html, Whole token) :
    ∀ token ∈ withoutPairs html, Whole token := by
  induction html using withoutPairs.induct with
  | case1 opening closing rest pair ih =>
    rw [withoutPairs, if_pos pair]
    exact ih (List.forall_mem_cons.mp (List.forall_mem_cons.mp whole).2).2
  | case2 opening closing rest apart ih =>
    rw [withoutPairs, if_neg apart]
    obtain ⟨head, behind⟩ := List.forall_mem_cons.mp whole
    exact List.forall_mem_cons.mpr ⟨head, ih behind⟩
  | case3 token rest single ih =>
    obtain ⟨head, behind⟩ := List.forall_mem_cons.mp whole
    rw [withoutPairs_single single]
    exact List.forall_mem_cons.mpr ⟨head, ih behind⟩
  | case4 => exact whole

/-- The pairs that are taken out enclose no letter. -/
theorem withoutPairs_reads (whole : ∀ token ∈ html, Whole token) {after : List Tag}
    (reads : Reads htmlTags stack html letters after) :
    Reads htmlTags stack (withoutPairs html) letters after := by
  induction html using withoutPairs.induct generalizing stack letters with
  | case1 opening closing rest pair ih =>
    rw [withoutPairs, if_pos pair]
    obtain ⟨head, behind⟩ := List.forall_mem_cons.mp whole
    obtain ⟨opens, rfl⟩ := pair
    have role := Tag.Opening.role ⟨head, opens⟩
    have closes := (close_pairs opening role).1
    refine ih (List.forall_mem_cons.mp behind).2 ?_
    cases reads with
    | stands other | closes other => rw [role] at other; cases other
    | opens _ reads =>
      cases reads with
      | stands other | opens other => rw [closes] at other; cases other
      | closes _ _ reads => exact reads
  | case2 opening closing rest apart ih =>
    rw [withoutPairs, if_neg apart]
    have behind := (List.forall_mem_cons.mp whole).2
    cases reads with
    | stands role reads => exact .stands role (ih behind reads)
    | opens role reads => exact .opens role (ih behind reads)
    | closes role pair reads => exact .closes role pair (ih behind reads)
  | case3 token rest single ih =>
    have behind := (List.forall_mem_cons.mp whole).2
    rw [withoutPairs_single single]
    cases reads with
    | letter letter reads => exact .letter letter (ih behind reads)
    | stands role reads => exact .stands role (ih behind reads)
    | opens role reads => exact .opens role (ih behind reads)
    | closes role pair reads => exact .closes role pair (ih behind reads)
  | case4 => exact reads

/-- The rounds leave a word without pairs, read as before. -/
theorem dropPairs_render (fuel : Nat) (whole : ∀ token ∈ html, Whole token)
    (reads : Reads htmlTags stack html letters []) (enough : (render html).length ≤ fuel) :
    ∃ out, dropPairs fuel (render html) = render out ∧ (∀ token ∈ out, Whole token) ∧
      Reads htmlTags stack out letters [] ∧
      resub emptyPair 0 none (render out) = render out := by
  induction fuel generalizing html with
  | zero =>
    have empty : render html = [] := List.length_eq_zero_iff.mp (Nat.le_zero.mp enough)
    refine ⟨html, rfl, whole, reads, ?_⟩
    rw [empty]
    rfl
  | succ fuel ih =>
    rw [dropPairs]
    split
    · next same => exact ⟨html, rfl, whole, reads, same⟩
    · next other =>
        have round := resub_render whole none
        have shorter : (render (withoutPairs html)).length < (render html).length := by
          rw [← round]
          have erased := resub_erases emptyPair_erases 0 none (render html)
          exact lt_of_le_of_ne erased.length_le fun same => other (erased.eq_of_length same)
        rw [round]
        exact ih (withoutPairs_whole whole) (withoutPairs_reads whole reads) (by omega)

end Pairs

/-! ## The whole repair -/

theorem plainText_reads {tags : Tags Tag} {stack after : List Tag} {html : List Html}
    {letters : List (Char × List Tag)} (reads : Reads tags stack html letters after) :
    plainText html = letters.map Prod.fst := by
  induction reads with
  | nil => rfl
  | letter letter _ ih => exact congrArg _ ih
  | stands _ _ ih | opens _ _ ih | closes _ _ _ ih => exact ih

theorem plainText_enclosing (stack : List Tag) (html : List Html) :
    (enclosing stack html).map Prod.fst = plainText html := by
  induction html generalizing stack with
  | nil => rfl
  | cons token rest ih =>
    cases token with
    | letter c => exact congrArg _ (ih stack)
    | tag tag => exact ih _

/-- What the repair makes of a text whose angle brackets all start tokens. -/
theorem sanitize_render {text : List Char} (starts : EachStarts text) :
    ∃ out, sanitizeHtmlTags text = render out ∧ (∀ token ∈ out, Whole token) ∧
      Reads htmlTags [] out (enclosing [] (tokens 0 text)) [] ∧
      resub emptyPair 0 none (render out) = render out := by
  unfold sanitizeHtmlTags
  split
  · next empty =>
      subst empty
      exact ⟨[], rfl, by simp, .nil [], rfl⟩
  · have whole := starts.whole
    have repairs := repair_render whole []
    rw [render_tokens] at repairs
    rw [repairs]
    exact dropPairs_render _ (repaired_whole whole (by simp)) (repaired_reads whole (by simp))
      (Nat.le_refl _)

/-- A nested text without empty pairs stays as it is. -/
theorem sanitize_nested {out : List Html} {letters : List (Char × List Tag)}
    (whole : ∀ token ∈ out, Whole token) (reads : Reads htmlTags [] out letters [])
    (settled : resub emptyPair 0 none (render out) = render out) :
    sanitizeHtmlTags (render out) = render out := by
  unfold sanitizeHtmlTags
  split
  · rfl
  · rw [repair_render whole, repaired_nested whole reads]
    dsimp only
    cases (render out).length with
    | zero => rfl
    | succ fuel =>
      rw [dropPairs]
      exact if_pos settled

/--
The tags of a repaired text are nested and closed, its letters are the letters
of the text, each inside exactly the tags that are open at it in the text, and
a second repair changes nothing.
-/
theorem repair_preserves (text : List Char) (starts : EachStarts text) :
    EachStarts (sanitizeHtmlTags text) ∧
      Reads htmlTags [] (tokens 0 (sanitizeHtmlTags text)) (enclosing [] (tokens 0 text)) [] ∧
      plainText (tokens 0 (sanitizeHtmlTags text)) = plainText (tokens 0 text) ∧
      sanitizeHtmlTags (sanitizeHtmlTags text) = sanitizeHtmlTags text := by
  obtain ⟨out, same, whole, reads, settled⟩ := sanitize_render starts
  rw [same, tokens_render whole]
  refine ⟨eachStarts_render whole, reads, ?_, sanitize_nested whole reads settled⟩
  rw [plainText_reads reads, plainText_enclosing]

instance : DecidablePred Starts
  | .letter c => inferInstanceAs (Decidable (c ≠ '<'))
  | .tag tag => inferInstanceAs (Decidable ('<' ∉ tag.full.tail))

/-- Two tags that are closed in the wrong order. -/
def crossedTags : List Char := "<b>x<i>y</b></i>".toList

theorem crossedTags_repaired :
    EachStarts (sanitizeHtmlTags crossedTags) ∧
      Reads htmlTags [] (tokens 0 (sanitizeHtmlTags crossedTags))
        (enclosing [] (tokens 0 crossedTags)) [] ∧
      plainText (tokens 0 (sanitizeHtmlTags crossedTags)) = plainText (tokens 0 crossedTags) ∧
      sanitizeHtmlTags (sanitizeHtmlTags crossedTags) = sanitizeHtmlTags crossedTags :=
  repair_preserves crossedTags (forall_mem_of_all (by decide +kernel))

example : sanitizeHtmlTags crossedTags = "<b>x<i>y</i></b>".toList := by decide +kernel

end BobbyBotique.Delivery
