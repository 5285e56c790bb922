import BobbyBotique.Delivery.Markdown

/-!
# The text of a prompt

The fields of a prompt, seen by two patterns: one for the check of an edit, on the text
as it is, and one for rendering, on the text with its doubled braces undone.
-/

namespace BobbyBotique.Prompts

open Delivery (Interpreter isWord)

/-! ## The two patterns -/

/-- A piece of a text that is cut at its fields. -/
inductive Piece where
  | literal (c : Char)
  | field (name : List Char)
  deriving DecidableEq

/-- The text with its leftmost fields, where `field?` reads a field behind its brace. -/
def cut (field? : List Char → Option (List Char)) : Nat → List Char → List Piece
  | _, [] => []
  | skip + 1, _ :: rest => cut field? skip rest
  | 0, c :: rest =>
    match if c = '{' then field? rest else none with
    | some name => .field name :: cut field? (name.length + 1) rest
    | none => .literal c :: cut field? 0 rest

def names (pieces : List Piece) : List (List Char) :=
  pieces.filterMap fun piece =>
    match piece with
    | .literal _ => none
    | .field name => some name

/-- The text the pieces were cut from. -/
def source (pieces : List Piece) : List Char :=
  pieces.flatMap fun piece =>
    match piece with
    | .literal c => [c]
    | .field name => '{' :: (name ++ ['}'])

/-- The text with a value in the place of each field. -/
def fill (value : List Char → List Char) (pieces : List Piece) : List Char :=
  pieces.flatMap fun piece =>
    match piece with
    | .literal c => [c]
    | .field name => value name

section

variable (python : Interpreter)

/-- `_PLACEHOLDER_RE` behind its brace. -/
def placeholder? (text : List Char) : Option (List Char) :=
  let word := text.takeWhile (isWord python)
  if word ≠ [] ∧ (text.dropWhile (isWord python)).head? = some '}' then some word else none

def startsField (c : Char) : Bool := ('A' ≤ c && c ≤ 'Z') || ('a' ≤ c && c ≤ 'z') || c == '_'

def isBrace (c : Char) : Bool := c == '{' || c == '}'

/-- `_FIELD_RE` behind its brace. -/
def templateField? (text : List Char) : Option (List Char) :=
  match text with
  | [] => none
  | c :: more =>
    if startsField c then
      let word := c :: more.takeWhile (isWord python)
      match more.dropWhile (isWord python) with
      | [] => none
      | d :: rest =>
        if d = '}' then some word
        else if ['.', '[', '!', ':'].contains d then
          let inner := rest.takeWhile fun c => !isBrace c
          if (rest.dropWhile fun c => !isBrace c).head? = some '}' then
            some (word ++ d :: inner)
          else none
        else none
    else none

/-- `_PLACEHOLDER_RE.findall`. -/
def placeholders (text : List Char) : List (List Char) := names (cut (placeholder? python) 0 text)

/-- `_FIELD_RE.findall`. -/
def templateFields (text : List Char) : List (List Char) :=
  names (cut (templateField? python) 0 text)

end

/-! ## Doubled braces -/

/-- `_unescape_template_braces` from one of its states. -/
def unescape : List Bool → Bool → List Char → List Char
  | _, _, [] => []
  | blocks, quoted, c :: rest =>
    if quoted ∧ c = '\\' then
      match rest with
      | [] => [c]
      | d :: rest => c :: d :: unescape blocks quoted rest
    else
      let quoted := if c = '"' ∧ blocks ≠ [] then !quoted else quoted
      if c = '{' ∧ quoted = false then
        match rest with
        | '{' :: rest => c :: unescape (true :: blocks) quoted rest
        | rest => c :: unescape (false :: blocks) quoted rest
      else if c = '}' ∧ quoted = false then
        match blocks with
        | [] => c :: unescape [] quoted rest
        | escaped :: blocks =>
          match escaped, rest with
          | true, '}' :: rest => c :: unescape blocks quoted rest
          | _, rest => c :: unescape blocks quoted rest
      else c :: unescape blocks quoted rest

def unescapeTemplateBraces (text : List Char) : List Char := unescape [] false text

/-- Some doubled braces of the first text are single in the second. -/
inductive Collapses : List Char → List Char → Prop
  | nil : Collapses [] []
  | keep (c : Char) {first second : List Char} (rest : Collapses first second) :
      Collapses (c :: first) (c :: second)
  | opening {first second : List Char} (rest : Collapses first second) :
      Collapses ('{' :: '{' :: first) ('{' :: second)
  | closing {first second : List Char} (rest : Collapses first second) :
      Collapses ('}' :: '}' :: first) ('}' :: second)

theorem unescape_collapses (blocks : List Bool) (quoted : Bool) (text : List Char) :
    Collapses text (unescape blocks quoted text) := by
  fun_induction unescape blocks quoted text with
  | case1 => exact .nil
  | case2 => exact .keep _ .nil
  | case3 _ _ _ _ _ _ ih => exact .keep _ (.keep _ ih)
  | case4 =>
    rename_i opens rest ih
    rw [opens.1]
    exact .opening ih
  | case5 =>
    rename_i ih
    exact .keep _ ih
  | case6 =>
    rename_i ih
    exact .keep _ ih
  | case7 =>
    rename_i closes ih
    rw [closes.1]
    exact .closing ih
  | case8 =>
    rename_i ih
    exact .keep _ ih
  | case9 =>
    rename_i ih
    exact .keep _ ih

/-! ## Where the fields stand -/

/-- The fields by the places of their braces. -/
def occurrences (field? : List Char → Option (List Char)) : List Char → List (List Char)
  | [] => []
  | c :: rest => (if c = '{' then field? rest else none).toList ++ occurrences field? rest

/-- A pattern that takes a name without braces and its closing brace. -/
def Closed (field? : List Char → Option (List Char)) : Prop :=
  ∀ text name, field? text = some name →
    '{' ∉ name ∧ ∃ rest, text = name ++ '}' :: rest

variable {field? : List Char → Option (List Char)} {python : Interpreter}

theorem cut_skip (name rest : List Char) :
    cut field? (name.length + 1) (name ++ '}' :: rest) = cut field? 0 rest := by
  induction name with
  | nil => rfl
  | cons c name ih => exact ih

theorem occurrences_skip {name : List Char} (plain : '{' ∉ name) (rest : List Char) :
    occurrences field? (name ++ '}' :: rest) = occurrences field? rest := by
  induction name with
  | nil => rfl
  | cons c name ih =>
    have different : c ≠ '{' := fun same => plain (same ▸ List.mem_cons_self)
    rw [List.cons_append, occurrences, if_neg different]
    exact ih fun among => plain (List.mem_cons_of_mem c among)

theorem found_of_mem_occurrences {text name : List Char} (among : name ∈ occurrences field? text) :
    ∃ rest, field? rest = some name := by
  induction text with
  | nil => cases among
  | cons c rest ih =>
    rcases List.mem_append.mp among with here | later
    · have found := Option.mem_toList.mp here
      split at found
      · exact ⟨rest, found⟩
      · cases found
    · exact ih later

/-- What the cut does at a brace. -/
theorem cut_cons (closed : Closed field?) (c : Char) (rest : List Char) :
    (∃ name tail, c = '{' ∧ rest = name ++ '}' :: tail ∧ field? rest = some name ∧ '{' ∉ name ∧
      cut field? 0 (c :: rest) = .field name :: cut field? 0 tail) ∨
    ((if c = '{' then field? rest else none) = none ∧
      cut field? 0 (c :: rest) = .literal c :: cut field? 0 rest) := by
  cases found : if c = '{' then field? rest else none with
  | none =>
    refine .inr ⟨rfl, ?_⟩
    rw [cut, found]
  | some name =>
    split at found
    · next brace =>
        obtain ⟨plain, tail, same⟩ := closed rest name found
        refine .inl ⟨name, tail, brace, same, found, plain, ?_⟩
        rw [cut, if_pos brace, found, same]
        exact congrArg (Piece.field name :: ·) (cut_skip name tail)
    · cases found

/-- Fields do not overlap, so the cut finds all of them. -/
theorem names_cut (closed : Closed field?) (text : List Char) :
    names (cut field? 0 text) = occurrences field? text := by
  induction size : text.length using Nat.strongRecOn generalizing text with
  | ind n ih =>
    cases text with
    | nil => rfl
    | cons c rest =>
      rcases cut_cons closed c rest with ⟨name, tail, brace, same, found, plain, cuts⟩ | ⟨none, cuts⟩
      · have shorter : tail.length < n := by
          rw [← size, same, List.length_cons, List.length_append, List.length_cons]
          omega
        rw [cuts, occurrences, if_pos brace, found, same, occurrences_skip plain,
          ← ih tail.length shorter tail rfl]
        rfl
      · rw [cuts, occurrences, none, ← ih rest.length (size ▸ Nat.lt_succ_self _) rest rfl]
        rfl

theorem source_cut (closed : Closed field?) (text : List Char) :
    source (cut field? 0 text) = text := by
  induction size : text.length using Nat.strongRecOn generalizing text with
  | ind n ih =>
    cases text with
    | nil => rfl
    | cons c rest =>
      rcases cut_cons closed c rest with ⟨name, tail, brace, same, found, plain, cuts⟩ | ⟨none, cuts⟩
      · have shorter : tail.length < n := by
          rw [← size, same, List.length_cons, List.length_append, List.length_cons]
          omega
        have kept := ih tail.length shorter tail rfl
        rw [cuts, brace, same]
        show '{' :: (name ++ ['}']) ++ source (cut field? 0 tail) = _
        rw [kept, List.cons_append, List.append_assoc]
        rfl
      · have kept := ih rest.length (size ▸ Nat.lt_succ_self _) rest rfl
        rw [cuts]
        show [c] ++ source (cut field? 0 rest) = _
        rw [kept]
        rfl

theorem isWord_brace (python : Interpreter) {c : Char} (brace : isBrace c = true) :
    isWord python c = false := by
  unfold isBrace at brace
  rcases (Bool.or_eq_true_iff.mp brace) with opening | closing
  · rw [eq_of_beq opening]
    unfold isWord
    rw [python.ascii '{' (by decide)]
    decide
  · rw [eq_of_beq closing]
    unfold isWord
    rw [python.ascii '}' (by decide)]
    decide

theorem word_plain {name : List Char} (word : ∀ c ∈ name, isWord python c = true) :
    '{' ∉ name := by
  intro among
  have absurd := word '{' among
  rw [isWord_brace python rfl] at absurd
  cases absurd

theorem placeholder?_spec {text name : List Char} :
    placeholder? python text = some name ↔ name ≠ [] ∧ (∀ c ∈ name, isWord python c = true) ∧
      ∃ rest, text = name ++ '}' :: rest := by
  unfold placeholder?
  dsimp only
  constructor
  · intro found
    split at found
    · next holds =>
        cases found
        refine ⟨holds.1, fun c among => List.mem_takeWhile_imp among, ?_⟩
        cases shape : text.dropWhile (isWord python) with
        | nil =>
          rw [shape] at holds
          cases holds.2
        | cons d rest =>
          rw [shape] at holds
          cases holds.2
          refine ⟨rest, ?_⟩
          rw [← shape, List.takeWhile_append_dropWhile]
    · cases found
  · rintro ⟨some', word, rest, rfl⟩
    have stop : isWord python '}' = false := isWord_brace python rfl
    have taken : (name ++ '}' :: rest).takeWhile (isWord python) = name := by
      rw [List.takeWhile_append_of_pos word, List.takeWhile_cons_of_neg (ne_true_of_eq_false stop),
        List.append_nil]
    have dropped : (name ++ '}' :: rest).dropWhile (isWord python) = '}' :: rest := by
      rw [List.dropWhile_append_of_pos word, List.dropWhile_cons_of_neg (ne_true_of_eq_false stop)]
    rw [taken, dropped, if_pos ⟨some', rfl⟩]

theorem placeholder?_closed (python : Interpreter) : Closed (placeholder? python) := by
  intro text name found
  obtain ⟨_, word, rest, same⟩ := placeholder?_spec.mp found
  exact ⟨word_plain word, rest, same⟩

theorem startsField_word {c : Char} (start : startsField c = true) : isWord python c = true := by
  unfold startsField at start
  unfold isWord
  rcases Bool.or_eq_true_iff.mp start with letter | underscore
  · have small : c.toNat < 128 ∧ c.isAlphanum = true := by
      simp only [Bool.or_eq_true, Bool.and_eq_true, decide_eq_true_eq, Char.le_def,
        UInt32.le_iff_toNat_le] at letter
      delta Char.isAlphanum Char.isAlpha Char.isUpper Char.isLower
      simp only [Bool.or_eq_true, Bool.and_eq_true, decide_eq_true_eq, ge_iff_le,
        UInt32.le_iff_toNat_le]
      change (65 ≤ c.toNat ∧ c.toNat ≤ 90) ∨ (97 ≤ c.toNat ∧ c.toNat ≤ 122) at letter
      refine ⟨by omega, ?_⟩
      change ((65 ≤ c.toNat ∧ c.toNat ≤ 90) ∨ (97 ≤ c.toNat ∧ c.toNat ≤ 122)) ∨ _
      exact .inl letter
    rw [python.ascii c small.1, small.2]
    rfl
  · rw [underscore, Bool.or_true]

/-- The two shapes of a field: a word, and a word with more behind it. -/
theorem templateField?_spec {text name : List Char}
    (found : templateField? python text = some name) :
    ∃ c more, name = c :: more ∧ startsField c = true ∧ '{' ∉ name ∧
      (∃ rest, text = name ++ '}' :: rest) ∧
      ((∀ c ∈ name, isWord python c = true) ∨ ∃ d ∈ name, ['.', '[', '!', ':'].contains d) := by
  unfold templateField? at found
  split at found
  · cases found
  · next c more =>
      split at found
      · next start =>
          have first : isWord python c = true := startsField_word start
          have word : ∀ d ∈ c :: more.takeWhile (isWord python), isWord python d = true := by
            intro d among
            rcases List.mem_cons.mp among with same | later
            · exact same ▸ first
            · exact List.mem_takeWhile_imp later
          have whole := List.takeWhile_append_dropWhile (p := isWord python) (l := more)
          dsimp only at found
          split at found
          · cases found
          · next d rest shape =>
              rw [shape] at whole
              split at found
              · next brace =>
                  cases found
                  refine ⟨c, _, rfl, start, word_plain word, ⟨rest, ?_⟩, .inl word⟩
                  rw [List.cons_append, ← brace, whole]
              · split at found
                · next mark =>
                    split at found
                    · next closes =>
                        cases found
                        refine ⟨c, _, rfl, start, ?_, ?_, .inr ⟨d, ?_, mark⟩⟩
                        · intro among
                          rcases List.mem_append.mp among with front | behind
                          · exact word_plain word front
                          · rcases List.mem_cons.mp behind with same | inner
                            · rw [← same] at mark
                              cases mark
                            · have plain := List.mem_takeWhile_imp inner
                              cases plain
                        · have inside := List.takeWhile_append_dropWhile
                            (p := fun c => !isBrace c) (l := rest)
                          cases after : rest.dropWhile fun c => !isBrace c with
                          | nil =>
                            rw [after] at closes
                            cases closes
                          | cons e tail =>
                            rw [after] at closes inside
                            cases closes
                            refine ⟨tail, ?_⟩
                            rw [List.append_assoc, List.cons_append, List.cons_append, inside,
                              whole]
                        · exact List.mem_append_right _ List.mem_cons_self
                    · cases found
                · cases found
      · cases found

theorem templateField?_closed (python : Interpreter) : Closed (templateField? python) := by
  intro text name found
  obtain ⟨_, _, _, _, plain, tail, _⟩ := templateField?_spec found
  exact ⟨plain, tail⟩

theorem placeholder?_of_templateField {text name : List Char}
    (found : templateField? python text = some name)
    (word : ∀ c ∈ name, isWord python c = true) : placeholder? python text = some name := by
  obtain ⟨c, more, rfl, _, _, tail, _⟩ := templateField?_spec found
  exact placeholder?_spec.mpr ⟨List.cons_ne_nil c more, word, tail⟩

/-- A placeholder with a proper start is a field of the check too. -/
theorem templateField?_of_placeholder {text name : List Char} {c : Char}
    (found : placeholder? python text = some (c :: name)) (start : startsField c = true) :
    templateField? python text = some (c :: name) := by
  obtain ⟨_, word, rest, rfl⟩ := placeholder?_spec.mp found
  have stop : isWord python '}' = false := isWord_brace python rfl
  have inner : ∀ d ∈ name, isWord python d = true :=
    fun d among => word d (List.mem_cons_of_mem c among)
  have taken : (name ++ '}' :: rest).takeWhile (isWord python) = name := by
    rw [List.takeWhile_append_of_pos inner, List.takeWhile_cons_of_neg (ne_true_of_eq_false stop),
      List.append_nil]
  have dropped : (name ++ '}' :: rest).dropWhile (isWord python) = '}' :: rest := by
    rw [List.dropWhile_append_of_pos inner, List.dropWhile_cons_of_neg (ne_true_of_eq_false stop)]
  unfold templateField?
  rw [List.cons_append]
  dsimp only
  rw [if_pos start, dropped, taken]
  rfl

/-- Undoing braces keeps the words and the brace behind them. -/
theorem collapses_word {first second name : List Char} (same : Collapses first second)
    (word : ∀ c ∈ name, isWord python c = true) :
    (∃ rest, second = name ++ '}' :: rest) ↔ ∃ rest, first = name ++ '}' :: rest := by
  induction name generalizing first second with
  | nil =>
    cases same with
    | nil => exact Iff.rfl
    | keep c rest =>
      constructor
      · rintro ⟨tail, same⟩
        cases same
        exact ⟨_, rfl⟩
      · rintro ⟨tail, same⟩
        cases same
        exact ⟨_, rfl⟩
    | opening rest =>
      constructor
      · rintro ⟨tail, same⟩
        cases same
      · rintro ⟨tail, same⟩
        cases same
    | closing rest => exact ⟨fun _ => ⟨_, rfl⟩, fun _ => ⟨_, rfl⟩⟩
  | cons c name ih =>
    have inner := fun d among => word d (List.mem_cons_of_mem c among)
    have plain : ∀ brace, isBrace brace = true → brace ≠ c := by
      rintro brace is rfl
      have absurd := word brace List.mem_cons_self
      rw [isWord_brace python is] at absurd
      cases absurd
    cases same with
    | nil =>
      constructor
      · rintro ⟨tail, same⟩
        cases same
      · rintro ⟨tail, same⟩
        cases same
    | keep d rest =>
      constructor
      · rintro ⟨tail, same⟩
        cases same
        obtain ⟨more, shape⟩ := (ih rest inner).mp ⟨tail, rfl⟩
        exact ⟨more, congrArg (c :: ·) shape⟩
      · rintro ⟨tail, same⟩
        cases same
        obtain ⟨more, shape⟩ := (ih rest inner).mpr ⟨tail, rfl⟩
        exact ⟨more, congrArg (c :: ·) shape⟩
    | opening rest =>
      constructor
      · rintro ⟨tail, same⟩
        exact absurd (List.cons.inj same).1 (plain '{' rfl)
      · rintro ⟨tail, same⟩
        exact absurd (List.cons.inj same).1 (plain '{' rfl)
    | closing rest =>
      constructor
      · rintro ⟨tail, same⟩
        exact absurd (List.cons.inj same).1 (plain '}' rfl)
      · rintro ⟨tail, same⟩
        exact absurd (List.cons.inj same).1 (plain '}' rfl)

theorem collapses_placeholder? {first second : List Char} (same : Collapses first second) :
    placeholder? python second = placeholder? python first := by
  apply Option.ext
  intro name
  rw [placeholder?_spec, placeholder?_spec]
  constructor
  · rintro ⟨some', word, tail⟩
    exact ⟨some', word, (collapses_word same word).mp tail⟩
  · rintro ⟨some', word, tail⟩
    exact ⟨some', word, (collapses_word same word).mpr tail⟩

/-- No placeholder stands at a brace that is followed by a brace. -/
theorem placeholder?_brace {brace : Char} (is : isBrace brace = true) (rest : List Char) :
    placeholder? python (brace :: rest) = none := by
  have plain := isWord_brace python is
  unfold placeholder?
  rw [List.takeWhile_cons_of_neg (ne_true_of_eq_false plain)]
  exact if_neg fun absurd => absurd.1 rfl

/-- Undoing braces neither makes nor loses a placeholder. -/
theorem collapses_occurrences {first second : List Char} (same : Collapses first second) :
    occurrences (placeholder? python) second = occurrences (placeholder? python) first := by
  induction same with
  | nil => rfl
  | keep c rest ih => rw [occurrences, occurrences, ih, collapses_placeholder? rest]
  | opening rest ih =>
    rw [occurrences, occurrences, occurrences, ih, collapses_placeholder? rest, if_pos rfl,
      if_pos rfl, placeholder?_brace rfl]
    rfl
  | closing rest ih =>
    rw [occurrences, occurrences, occurrences, ih]
    rfl

theorem placeholders_unescape (python : Interpreter) (text : List Char) :
    placeholders python (unescapeTemplateBraces text) = placeholders python text := by
  unfold placeholders
  rw [names_cut (placeholder?_closed python), names_cut (placeholder?_closed python)]
  exact collapses_occurrences (unescape_collapses [] false text)

end BobbyBotique.Prompts
