import BobbyBotique.Foundation.Dict
import BobbyBotique.Reader.Layout
import Mathlib.Data.List.Sort

/-!
# The table of contents

`extract_toc` finds the headings of a source by one pattern on the text outside its
fences, and `markdown_to_reader_html` line by line behind its markers.  Each letter
carries the number of its line, so that an entry and a heading can be compared.
-/

namespace BobbyBotique.Reader

open Delivery

/-! ## Letters and their lines -/

/-- Letters with the numbers of their lines. -/
abbrev Placed := List (Nat × Char)

def letters (text : Placed) : Text := text.map Prod.snd

def placed : Nat → Text → Placed
  | _, [] => []
  | line, c :: rest => (line, c) :: placed (if c = '\n' then line + 1 else line) rest

/-- `text.split("\n")`. -/
def placedLines : Placed → List Placed
  | [] => [[]]
  | letter :: rest =>
    if letter.2 = '\n' then [] :: placedLines rest
    else
      match placedLines rest with
      | [] => [[letter]]
      | first :: more => (letter :: first) :: more

/-! ## `extract_toc` -/

/-- `_TOC_FENCE_STRIP_RE.sub`. -/
def outsideFences : Nat → Placed → Placed
  | _, [] => []
  | skip + 1, _ :: rest => outsideFences skip rest
  | 0, letter :: rest =>
    match blockLength (letters (letter :: rest)) with
    | some length => outsideFences (length - 1) rest
    | none => letter :: outsideFences 0 rest

/-- The match of `_HEADING_RE` at the start of a line: its length and its two groups.  The
blanks may run into the lines below, and give letters back where the text ends with them. -/
def headingAt (text : Text) : Option (Nat × Nat × Text) :=
  let level := (text.takeWhile (· = '#')).length
  let behind := text.dropWhile (· = '#')
  let blanks := behind.takeWhile isSpace
  if level = 0 ∨ 3 < level ∨ blanks = [] then none
  else if behind.dropWhile isSpace = [] then
    match (blanks.drop 1).reverse.dropWhile (· = '\n') with
    | [] => none
    | last :: front => some (level + front.length + 2, level, [last])
  else
    let line := (behind.dropWhile isSpace).takeWhile (· ≠ '\n')
    some (level + blanks.length + line.length, level, line)

/-- An entry, with the number of the line that it was taken from. -/
structure Entry where
  line : Nat
  level : Nat
  text : Text
  anchor : Text

/-- The substitution by the first group. -/
def unwrap (pattern : Enclosure) (before : Option Char) (text : Text) : Option (Nat × Text) :=
  (pattern.group before text).map fun group =>
    (pattern.mark.length + group.length + pattern.mark.length, group)

/-- `_TOC_BOLD_RE`, `_TOC_ITALIC_RE` and `_TOC_CODE_RE`. -/
def tocPatterns : List Enclosure :=
  ["**", "*", "`"].map fun mark =>
    ⟨mark.toList, notNewline, fun _ _ => true, fun _ _ => true⟩

/-- The text of an entry. -/
def tocText (content : Text) : Text :=
  tocPatterns.foldl (fun text pattern => resub (unwrap pattern) 0 none text) (strip content)

section

variable (lib : Library)

/-- The matches of `_HEADING_RE`, their anchors not yet numbered. -/
def entriesFrom : Nat → Bool → Placed → List Entry
  | _, _, [] => []
  | skip + 1, _, letter :: rest => entriesFrom skip (letter.2 = '\n') rest
  | 0, lineStart, letter :: rest =>
    match if lineStart then headingAt (letters (letter :: rest)) else none with
    | some (length, level, content) =>
      ⟨letter.1, level, tocText content, slug lib (tocText content)⟩ ::
        entriesFrom (length - 1) (letter.2 = '\n') rest
    | none => entriesFrom 0 (letter.2 = '\n') rest

/-- The entries of a source before `seen_anchors` numbers them. -/
def taken (source : Text) : List Entry :=
  entriesFrom lib 0 true (outsideFences 0 (placed 0 source))

/-- The numbering of the anchors that `seen_anchors` holds. -/
def numbered : Dict Text Nat → List Entry → List Entry
  | _, [] => []
  | seen, entry :: rest =>
    match seen.get? entry.anchor with
    | some count =>
      { entry with anchor := entry.anchor ++ '-' :: Nat.toDigits 10 (count + 1) } ::
        numbered (seen.set entry.anchor (count + 1)) rest
    | none => entry :: numbered (seen.set entry.anchor 0) rest

/-- `extract_toc`. -/
def extractToc (source : Text) : List Entry :=
  let entries := numbered .empty (taken lib source)
  if 2 ≤ entries.length then entries else []

/-! ## The headings of the page -/

/-- `protect` on letters with their lines; a marker stands on the line of its fence. -/
def protectPlaced (python : Interpreter) : Nat → Option Char → Nat → Placed → Placed
  | _, _, _, [] => []
  | skip + 1, _, index, letter :: rest => protectPlaced python skip (some letter.2) index rest
  | 0, before, index, letter :: rest =>
    match fenceAt python before (letters (letter :: rest)) with
    | some (length, _) =>
      (marker index).map (fun c => (letter.1, c)) ++
        protectPlaced python (length - 1) (some letter.2) (index + 1) rest
    | none => letter :: protectPlaced python 0 (some letter.2) index rest

/-- The id of the heading that a line of the page becomes. -/
def lineId (line : Text) : Option Text :=
  (heading? (strip line)).map fun parts => slug lib (cleanHeading parts.2)

/-- The line and the id of each heading element of the page. -/
def pageHeadings (source : Text) : List (Nat × Text) :=
  (placedLines (protectPlaced lib.python 0 none 0 (placed 0 source))).filterMap fun line =>
    match line.head?, lineId lib (letters line) with
    | some letter, some id => some (letter.1, id)
    | _, _ => none

/-- The id that a block is rendered with. -/
def Block.id? : Block → Option Text
  | .heading _ text => some (slug lib (cleanHeading text))
  | _ => none

end

/-! ## Lines of the page -/

theorem letters_placed (line : Nat) (text : Text) : letters (placed line text) = text := by
  induction text generalizing line with
  | nil => rfl
  | cons c rest ih => exact congrArg (c :: ·) (ih _)

theorem letters_placedLines (text : Placed) :
    (placedLines text).map letters = splitLines (letters text) := by
  induction text with
  | nil => rfl
  | cons letter rest ih =>
    rw [placedLines]
    change _ = splitLines (letter.2 :: letters rest)
    rw [splitLines, ← ih]
    split
    · rfl
    · cases placedLines rest <;> rfl

theorem letters_protectPlaced (python : Interpreter) (skip index : Nat) (before : Option Char)
    (text : Placed) : letters (protectPlaced python skip before index text) =
      (protect python skip before index (letters text)).1 := by
  induction text generalizing skip index before with
  | nil => cases skip <;> rfl
  | cons letter rest ih =>
    cases skip with
    | succ skip => exact ih skip index (some letter.2)
    | zero =>
      rw [protectPlaced]
      change _ = (protect python 0 before index (letter.2 :: letters rest)).1
      rw [protect]
      change letters (match fenceAt python before (letter.2 :: letters rest) with
        | some (length, _) => _
        | none => _) = _
      cases fenceAt python before (letter.2 :: letters rest) with
      | none => exact congrArg (letter.2 :: ·) (ih 0 index (some letter.2))
      | some found =>
        have tags : ((marker index).map fun c => (letter.1, c)).map Prod.snd =
            marker index := by
          rw [List.map_map]
          exact List.map_id _
        dsimp only
        rw [letters, List.map_append, tags]
        exact congrArg (marker index ++ ·) (ih _ _ _)

section

variable {lib : Library}

/-- A heading starts with a number sign. -/
theorem heading?_head {line : Text} (other : line.head? ≠ some '#') : heading? line = none := by
  cases line with
  | nil => rfl
  | cons c rest =>
    have differs : c ≠ '#' := fun same => other (congrArg some same)
    have front : (c :: rest).takeWhile (· = '#') = [] :=
      List.takeWhile_cons_of_neg (by simpa using differs)
    unfold heading?
    rw [front]
    rfl

theorem lineId_group {line : Text} {holds : Text → Bool}
    (apart : ∀ stripped, holds stripped = true → stripped.head? ≠ some '#')
    (held : holds (strip line) = true) : lineId lib line = none := by
  rw [lineId, heading?_head (apart _ held)]
  rfl

theorem isQuote_head (stripped : Text) (quoted : isQuote stripped = true) :
    stripped.head? ≠ some '#' := by
  rcases Bool.or_eq_true_iff.mp quoted with front | single
  · obtain ⟨rest, rfl⟩ := List.isPrefixOf_iff_prefix.mp front
    exact fun sign => absurd (Option.some.inj sign) (by decide)
  · rw [beq_iff_eq.mp single]
    decide

theorem isBullet_head (stripped : Text) (bullet : isBullet stripped = true) :
    stripped.head? ≠ some '#' := by
  intro sign
  cases stripped with
  | nil => cases sign
  | cons c rest =>
    cases sign
    cases rest with
    | nil => cases bullet
    | cons blank rest =>
      have mark : ("-*+".toList.contains '#' && isSpace blank) = true := bullet
      exact absurd (Bool.and_eq_true_iff.mp mark).1 (by decide)

theorem isNumbered_head (stripped : Text) (item : isNumbered lib stripped = true) :
    stripped.head? ≠ some '#' := by
  intro sign
  cases stripped with
  | nil => cases sign
  | cons c rest =>
    cases sign
    have digit : lib.isDecimal '#' = false := (lib.ascii _ (by decide)).trans (by decide)
    have first := (Bool.and_eq_true_iff.mp item).1
    rw [List.takeWhile_cons_of_neg (by rw [digit]; exact Bool.false_ne_true)] at first
    exact absurd first (by decide)

/-- The lines of a group are no headings. -/
theorem filterMap_group {holds : Text → Bool}
    (apart : ∀ stripped, holds stripped = true → stripped.head? ≠ some '#')
    (lines : List Text) :
    (lines.drop ((lines.map strip).takeWhile holds).length).filterMap (lineId lib) =
      lines.filterMap (lineId lib) := by
  induction lines with
  | nil => rfl
  | cons line rest ih =>
    rw [List.map_cons]
    cases held : holds (strip line) with
    | false =>
      rw [List.takeWhile_cons_of_neg (by rw [held]; exact Bool.false_ne_true)]
      rfl
    | true =>
      rw [List.takeWhile_cons_of_pos held, List.filterMap_cons_none (lineId_group apart held)]
      exact ih

theorem flushPara_ids (buffer : List Text) :
    (flushPara buffer).filterMap (Block.id? lib) = [] := by
  unfold flushPara
  dsimp only
  split <;> rfl

/-- The headings of the blocks are those of the lines. -/
theorem blocks_ids (buffer lines : List Text) :
    (blocks lib 0 buffer lines).filterMap (Block.id? lib) = lines.filterMap (lineId lib) := by
  generalize size : lines.length = bound
  induction bound using Nat.strongRecOn generalizing buffer lines with
  | ind bound ih =>
    subst size
    cases lines with
    | nil => exact flushPara_ids buffer
    | cons line rest =>
      have next : ∀ waiting, (blocks lib 0 waiting rest).filterMap (Block.id? lib) =
          rest.filterMap (lineId lib) :=
        fun waiting => ih _ (Nat.lt_succ_self _) waiting rest rfl
      have groups : ∀ holds : Text → Bool,
          (∀ stripped, holds stripped = true → stripped.head? ≠ some '#') →
          holds (strip line) = true →
          (blocks lib ((((line :: rest).map strip).takeWhile holds).length - 1) []
            rest).filterMap (Block.id? lib) = (line :: rest).filterMap (lineId lib) := by
        intro holds apart held
        have group := @filterMap_group lib holds apart (line :: rest)
        rw [List.map_cons, List.takeWhile_cons_of_pos held, List.length_cons] at group ⊢
        rw [blocks_skip, ← group]
        refine ih _ ?_ _ _ rfl
        rw [List.length_drop, List.length_cons]
        omega
      rw [blocks]
      dsimp only
      cases heading : heading? (strip line) with
      | some parts =>
        obtain ⟨level, text⟩ := parts
        have id : lineId lib line = some (slug lib (cleanHeading text)) := by
          rw [lineId, heading]
          rfl
        rw [List.filterMap_append, flushPara_ids, List.filterMap_cons_some id]
        exact congrArg (_ :: ·) (next [])
      | none =>
        have id : lineId lib line = none := by
          rw [lineId, heading]
          rfl
        dsimp only
        rw [List.filterMap_cons_none id] at groups ⊢
        split
        · rw [List.filterMap_append, flushPara_ids]
          exact next []
        split
        · next quoted =>
            rw [List.filterMap_append, flushPara_ids]
            exact groups isQuote isQuote_head quoted
        split
        · next bullet =>
            rw [List.filterMap_append, flushPara_ids]
            exact groups isBullet isBullet_head bullet
        split
        · next item =>
            rw [List.filterMap_append, flushPara_ids]
            exact groups (isNumbered lib) isNumbered_head item
        split
        · rw [List.filterMap_append, flushPara_ids]
          exact next []
        split
        · rw [List.filterMap_append, flushPara_ids]
          exact next []
        · exact next _

/-- The ids of the page are those of its heading blocks. -/
theorem pageHeadings_ids (source : Text) :
    (pageHeadings lib source).map Prod.snd = (pageBlocks lib source).filterMap (Block.id? lib) := by
  rw [pageBlocks, blocks_ids]
  have whole := letters_protectPlaced lib.python 0 0 none (placed 0 source)
  rw [letters_placed] at whole
  rw [← whole, ← letters_placedLines, List.filterMap_map, pageHeadings, List.map_filterMap]
  congr 1
  funext line
  cases line with
  | nil => rfl
  | cons letter rest =>
    dsimp only [List.head?_cons, Function.comp_apply]
    cases lineId lib (letters (letter :: rest)) <;> rfl

end

end BobbyBotique.Reader
