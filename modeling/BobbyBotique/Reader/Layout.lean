import BobbyBotique.Reader.Inline
import Mathlib.Data.List.Infix

/-!
# Where the fenced blocks stand

In a source without the letter of the markers, whose closing fences end their
lines, a marker has a line to itself.  It becomes a block of its own, and the
replacement of the markers puts the rendered fences in their places.
-/

namespace BobbyBotique.Reader

open Delivery

/-! ## The fences of a text -/

theorem closing_spec {lineStart : Bool} {body code : Text}
    (found : closing lineStart body = some code) : ∃ rest, body = code ++ (fence ++ rest) := by
  induction body generalizing lineStart code with
  | nil => cases found
  | cons c rest ih =>
    rw [closing] at found
    split at found
    · next closes =>
        cases found
        obtain ⟨_, front⟩ := Bool.and_eq_true_iff.mp closes
        obtain ⟨behind, same⟩ := List.isPrefixOf_iff_prefix.mp front
        exact ⟨behind, same.symm⟩
    · obtain ⟨shorter, later, rfl⟩ := Option.map_eq_some_iff.mp found
      obtain ⟨behind, rfl⟩ := ih later
      exact ⟨behind, rfl⟩

/-- A match starts at a line and ends with a fence. -/
theorem fenceAt_spec {python : Interpreter} {before : Option Char} {text : Text} {length : Nat}
    {block : Fence} (found : fenceAt python before text = some (length, block)) :
    before.all (· == '\n') = true ∧ ∃ front rest, text = front ++ ('`' :: rest) ∧
      length = front.length + 1 ∧ block.word <:+: text ∧ block.code <:+: text := by
  unfold fenceAt at found
  split at found
  case isFalse => cases found
  next opens =>
  obtain ⟨start, opening⟩ := Bool.and_eq_true_iff.mp opens
  obtain ⟨behind, rfl⟩ := List.isPrefixOf_iff_prefix.mp opening
  refine ⟨start, ?_⟩
  have three : (fence ++ behind).drop 3 = behind := rfl
  rw [three] at found
  dsimp only at found
  have whole := List.takeWhile_append_dropWhile (p := isWord python) (l := behind)
  generalize behind.takeWhile (isWord python) = word at found whole
  split at found
  · next body shape =>
      obtain ⟨code, closes, same⟩ := Option.map_eq_some_iff.mp found
      obtain ⟨rest, rfl⟩ := closing_spec closes
      cases same
      rw [shape] at whole
      subst whole
      refine ⟨fence ++ word ++ '\n' :: code ++ ['`', '`'], rest, ?_, ?_, ?_, ?_⟩
      · simp [fence]
      · simp [fence]
        omega
      · exact ⟨fence, '\n' :: (code ++ (fence ++ rest)), List.append_assoc ..⟩
      · exact ⟨fence ++ word ++ ['\n'], fence ++ rest, by simp⟩
  · next body shape =>
      obtain ⟨code, closes, same⟩ := Option.map_eq_some_iff.mp found
      obtain ⟨rest, split⟩ := closing_spec closes
      cases same
      rw [split] at whole
      subst whole
      refine ⟨fence ++ word ++ code ++ ['`', '`'], rest, ?_, ?_, ?_, ?_⟩
      · simp [fence]
      · simp [fence]
        omega
      · exact ⟨fence, code ++ (fence ++ rest), List.append_assoc ..⟩
      · exact ⟨fence ++ word, fence ++ rest, by simp⟩

/-- Nothing but blanks follows a closing fence on its line. -/
def closedLines (python : Interpreter) : Nat → Option Char → Text → Bool
  | _, _, [] => true
  | skip + 1, _, c :: rest => closedLines python skip (some c) rest
  | 0, before, c :: rest =>
    match fenceAt python before (c :: rest) with
    | some (length, _) =>
      (((c :: rest).drop length).takeWhile (· ≠ '\n')).all isSpace &&
        closedLines python (length - 1) (some c) rest
    | none => closedLines python 0 (some c) rest

theorem protect_skip (python : Interpreter) (front : Text) (last : Char) (before : Option Char)
    (index : Nat) (rest : Text) :
    protect python (front.length + 1) before index (front ++ last :: rest) =
      protect python 0 (some last) index rest := by
  induction front generalizing before with
  | nil => rfl
  | cons c front ih => exact ih (some c)

theorem closedLines_skip (python : Interpreter) (front : Text) (last : Char)
    (before : Option Char) (rest : Text) :
    closedLines python (front.length + 1) before (front ++ last :: rest) =
      closedLines python 0 (some last) rest := by
  induction front generalizing before with
  | nil => rfl
  | cons c front ih => exact ih (some c)

/-- Lines that are plain, or a marker with blanks behind it; the markers count up. -/
inductive Layout (allowed : Char → Prop) : Nat → List Text → Nat → Prop where
  | nil (index : Nat) : Layout allowed index [] index
  | plain {index count : Nat} {line : Text} {rest : List Text} (known : ∀ c ∈ line, allowed c)
      (behind : Layout allowed index rest count) : Layout allowed index (line :: rest) count
  | marked {index count : Nat} {blank : Text} {rest : List Text}
      (spaces : blank.all isSpace = true) (behind : Layout allowed (index + 1) rest count) :
      Layout allowed index ((marker index ++ blank) :: rest) count

theorem splitLines_append {front : Text} (one : '\n' ∉ front) {first text : Text}
    {rest : List Text} (lines : splitLines text = first :: rest) :
    splitLines (front ++ text) = (front ++ first) :: rest := by
  induction front with
  | nil => exact lines
  | cons c front ih =>
    have ne : c ≠ '\n' := fun same => one (same ▸ List.mem_cons_self)
    rw [List.cons_append, splitLines, if_neg ne,
      ih fun among => one (List.mem_cons_of_mem c among)]
    rfl

theorem newline_not_mem_marker (index : Nat) : '\n' ∉ marker index := by
  unfold marker
  intro among
  rcases List.mem_append.mp among with among | among
  · rcases List.mem_append.mp among with among | among
    · revert among
      decide
    · have digit := Nat.isDigit_of_mem_toDigits (by decide) (by decide) among
      revert digit
      decide
  · revert among
    decide

theorem protect_layout {python : Interpreter} {allowed : Char → Prop} {before : Option Char}
    {index : Nat} {text : Text} (closed : closedLines python 0 before text = true)
    (known : ∀ c ∈ text, allowed c) :
    (before.all (· == '\n') = true →
      Layout allowed index (splitLines (protect python 0 before index text).1)
        (index + (protect python 0 before index text).2.length)) ∧
    (before.all (· == '\n') = false → ∃ lines, splitLines (protect python 0 before index text).1 =
          text.takeWhile (· ≠ '\n') :: lines ∧
        Layout allowed index lines (index + (protect python 0 before index text).2.length)) := by
  generalize size : text.length = bound
  induction bound using Nat.strongRecOn generalizing text before index with
  | ind bound ih =>
    subst size
    cases text with
    | nil =>
      constructor
      · intro _
        exact .plain (fun _ absurd => (List.not_mem_nil absurd).elim) (.nil index)
      · intro _
        exact ⟨[], rfl, .nil index⟩
    | cons c rest =>
      have later : ∀ other ∈ rest, allowed other :=
        fun other among => known other (List.mem_cons_of_mem c among)
      rw [closedLines] at closed
      rw [protect]
      cases found : fenceAt python before (c :: rest) with
      | some result =>
        obtain ⟨length, block⟩ := result
        rw [found] at closed
        dsimp only at closed ⊢
        obtain ⟨start, front, behind, shape, same, _⟩ := fenceAt_spec found
        obtain ⟨blank, closed⟩ := Bool.and_eq_true_iff.mp closed
        have dropped : (c :: rest).drop length = behind := by
          rw [shape, same]
          simp
        have skips : protect python (length - 1) (some c) (index + 1) rest =
            protect python 0 (some '`') (index + 1) behind ∧
              closedLines python (length - 1) (some c) rest =
                closedLines python 0 (some '`') behind := by
          subst same
          cases front with
          | nil =>
            obtain ⟨rfl, rfl⟩ := List.cons.inj shape
            exact ⟨rfl, rfl⟩
          | cons first front =>
            obtain ⟨rfl, rfl⟩ := List.cons.inj shape
            exact ⟨protect_skip .., closedLines_skip ..⟩
        have shorter : behind.length < (c :: rest).length := by
          rw [shape, List.length_append, List.length_cons]
          omega
        rw [skips.2] at closed
        obtain ⟨lines, split, layout⟩ := (ih _ shorter closed
          (fun other among => known other (shape ▸ List.mem_append_right front
            (List.mem_cons_of_mem _ among))) rfl).2 rfl
        rw [skips.1]
        constructor
        · intro _
          rw [splitLines_append (newline_not_mem_marker index) split]
          rw [dropped] at blank
          have count := layout
          rw [Nat.add_right_comm] at count
          exact .marked blank count
        · intro absurd
          rw [start] at absurd
          cases absurd
      | none =>
        rw [found] at closed
        dsimp only at closed ⊢
        have shorter : rest.length < (c :: rest).length := Nat.lt_succ_self _
        obtain ⟨fresh, inside⟩ := @ih rest.length shorter (some c) index rest closed later rfl
        by_cases newline : c = '\n'
        · subst newline
          have layout := fresh rfl
          constructor
          · intro _
            rw [splitLines, if_pos rfl]
            exact .plain (fun _ absurd => (List.not_mem_nil absurd).elim) layout
          · intro _
            exact ⟨_, by rw [splitLines, if_pos rfl]; rfl, layout⟩
        · obtain ⟨lines, split, layout⟩ := inside (by simpa using newline)
          have joined : splitLines (c :: (protect python 0 (some c) index rest).1) =
              (c :: rest.takeWhile (· ≠ '\n')) :: lines := by
            rw [splitLines, if_neg newline, split]
            rfl
          rw [joined]
          constructor
          · intro _
            refine .plain ?_ layout
            intro other among
            rcases List.mem_cons.mp among with rfl | among
            · exact known other List.mem_cons_self
            · exact later other ((List.takeWhile_prefix _).subset among)
          · intro _
            refine ⟨lines, ?_, layout⟩
            rw [List.takeWhile_cons_of_pos (by simpa using newline)]

/-! ## The blocks of the lines -/

/-- The texts of a block that get inline markup. -/
def Block.texts : Block → List Text
  | .heading _ text => [text]
  | .rule => []
  | .quote lines => lines
  | .bullets items => items
  | .numbered items => items
  | .code _ => []
  | .paragraph text => [text]

def Block.isCode : Block → Bool
  | .code _ => true
  | _ => false

/-- Blocks in which the markers count up and the other texts have allowed letters. -/
inductive Arranged (allowed : Char → Prop) : Nat → List Block → Nat → Prop where
  | nil (index : Nat) : Arranged allowed index [] index
  | other {index count : Nat} {block : Block} {rest : List Block} (plain : block.isCode = false)
      (known : ∀ text ∈ block.texts, ∀ c ∈ text, allowed c)
      (behind : Arranged allowed index rest count) : Arranged allowed index (block :: rest) count
  | code {index count : Nat} {rest : List Block}
      (behind : Arranged allowed (index + 1) rest count) :
      Arranged allowed index (.code (marker index) :: rest) count

theorem marker_cons (index : Nat) :
    marker index = '\x00' :: ("CODE".toList ++ Nat.toDigits 10 index ++ ['\x00']) := rfl

/-- A marker stands alone on its stripped line. -/
theorem strip_marker (index : Nat) {blank : Text} (spaces : blank.all isSpace = true) :
    strip (marker index ++ blank) = marker index := by
  have front : lstrip (marker index ++ blank) = marker index ++ blank := by
    rw [marker_cons]
    exact List.dropWhile_cons_of_neg (by decide)
  have back : (marker index ++ blank).reverse = blank.reverse ++ (marker index).reverse :=
    List.reverse_append
  have all : ∀ c ∈ blank.reverse, isSpace c = true :=
    fun c among => List.all_eq_true.mp spaces c (List.mem_reverse.mp among)
  have last : (marker index).reverse =
      '\x00' :: ("\x00CODE".toList ++ Nat.toDigits 10 index).reverse := by
    unfold marker
    rw [List.reverse_append]
    rfl
  unfold strip
  rw [front, back]
  unfold lstrip
  rw [List.dropWhile_append_of_pos all, last, List.dropWhile_cons_of_neg (by decide), ← last,
    List.reverse_reverse]

section

variable {lib : Library} {allowed : Char → Prop}

theorem heading?_marker (index : Nat) : heading? (marker index) = none := rfl

theorem isRule_marker (index : Nat) : isRule (marker index) = false := rfl

theorem isQuote_marker (index : Nat) : isQuote (marker index) = false := rfl

theorem isBullet_marker (index : Nat) : isBullet (marker index) = false := rfl

theorem isNumbered_marker (index : Nat) : isNumbered lib (marker index) = false := by
  have digit : lib.isDecimal '\x00' = false := (lib.ascii _ (by decide)).trans (by decide)
  unfold isNumbered
  rw [marker_cons, List.takeWhile_cons_of_neg (by rw [digit]; exact Bool.false_ne_true)]
  rfl

theorem marked_marker (index : Nat) :
    (marker index).tails.any "\x00CODE".toList.isPrefixOf = true := by
  apply List.any_eq_true.mpr
  refine ⟨marker index, (List.mem_tails _ _).mpr (List.suffix_refl _), ?_⟩
  unfold marker
  rw [List.append_assoc]
  exact List.isPrefixOf_iff_prefix.mpr (List.prefix_append _ _)

/-- The lines of a group are plain, and the rest of the lines is laid out as before. -/
theorem Layout.group {index count : Nat} {lines : List Text}
    (layout : Layout allowed index lines count) {holds : Text → Bool}
    (unmarked : ∀ index, holds (marker index) = false) :
    (∀ text ∈ (lines.map strip).takeWhile holds, ∀ c ∈ text, allowed c) ∧
      Layout allowed index (lines.drop ((lines.map strip).takeWhile holds).length) count := by
  induction layout with
  | nil index => exact ⟨fun _ absurd => (List.not_mem_nil absurd).elim, .nil index⟩
  | @plain index count line rest known behind ih =>
    rw [List.map_cons]
    cases found : holds (strip line) with
    | true =>
      rw [List.takeWhile_cons_of_pos found]
      refine ⟨fun text among => ?_, ih.2⟩
      rcases List.mem_cons.mp among with rfl | among
      · exact fun c letter => known c (strip_subset letter)
      · exact ih.1 text among
    | false =>
      rw [List.takeWhile_cons_of_neg (by rw [found]; exact Bool.false_ne_true)]
      exact ⟨fun _ absurd => (List.not_mem_nil absurd).elim, .plain known behind⟩
  | @marked index count blank rest spaces behind ih =>
    rw [List.map_cons, strip_marker index spaces, List.takeWhile_cons_of_neg
      (by rw [unmarked index]; exact Bool.false_ne_true)]
    exact ⟨fun _ absurd => (List.not_mem_nil absurd).elim, .marked spaces behind⟩

theorem blocks_skip (skip : Nat) (buffer lines : List Text) :
    blocks lib skip buffer lines = blocks lib 0 buffer (lines.drop skip) := by
  induction skip generalizing lines with
  | zero => rfl
  | succ skip ih =>
    cases lines with
    | nil => rfl
    | cons line rest => exact ih rest

theorem mem_intercalate {separator : Text} {words : List Text} {c : Char}
    (among : c ∈ separator.intercalate words) : c ∈ separator ∨ ∃ word ∈ words, c ∈ word := by
  induction words with
  | nil => exact absurd among (by simp [List.intercalate])
  | cons word rest ih =>
    cases rest with
    | nil =>
      right
      exact ⟨word, List.mem_cons_self, by simpa [List.intercalate] using among⟩
    | cons next others =>
      have shape : separator.intercalate (word :: next :: others) =
          word ++ (separator ++ separator.intercalate (next :: others)) := by
        simp [List.intercalate]
      rw [shape] at among
      rcases List.mem_append.mp among with here | among
      · exact .inr ⟨word, List.mem_cons_self, here⟩
      · rcases List.mem_append.mp among with between | among
        · exact .inl between
        · rcases ih among with between | ⟨other, listed, inside⟩
          · exact .inl between
          · exact .inr ⟨other, List.mem_cons_of_mem word listed, inside⟩

theorem Arranged.flush {index count : Nat} {rest : List Block} {buffer : List Text}
    (blank : allowed ' ') (known : ∀ line ∈ buffer, ∀ c ∈ line, allowed c)
    (behind : Arranged allowed index rest count) :
    Arranged allowed index (flushPara buffer ++ rest) count := by
  unfold flushPara
  dsimp only
  split
  · exact behind
  · refine .other rfl ?_ behind
    intro text among c letter
    cases List.mem_singleton.mp among
    rcases mem_intercalate letter with between | ⟨line, listed, inside⟩
    · cases List.mem_singleton.mp between
      exact blank
    · exact known line listed c inside

/-- The blocks keep the markers in their order and the letters of the lines. -/
theorem blocks_arranged {index count : Nat} {lines buffer : List Text}
    (layout : Layout allowed index lines count) (blank : allowed ' ')
    (solid : ¬allowed '\x00') (known : ∀ line ∈ buffer, ∀ c ∈ line, allowed c) :
    Arranged allowed index (blocks lib 0 buffer lines) count := by
  generalize size : lines.length = bound
  induction bound using Nat.strongRecOn generalizing lines index buffer with
  | ind bound ih =>
    subst size
    have nothing : ∀ line ∈ ([] : List Text), ∀ c ∈ line, allowed c :=
      fun _ absurd => (List.not_mem_nil absurd).elim
    cases layout with
    | nil =>
      rw [blocks, ← List.append_nil (flushPara buffer)]
      exact .flush blank known (.nil _)
    | @marked _ _ space rest spaces behind =>
      have next := ih rest.length (Nat.lt_succ_self _) behind nothing rfl
      rw [blocks]
      dsimp only
      rw [strip_marker index spaces, heading?_marker, isRule_marker, isQuote_marker,
        isBullet_marker, isNumbered_marker, marked_marker]
      exact .flush blank known (.code next)
    | @plain index count line rest letters behind =>
      have next : ∀ {buffer : List Text}, (∀ line ∈ buffer, ∀ c ∈ line, allowed c) →
          Arranged allowed index (blocks lib 0 buffer rest) count :=
        fun known => ih rest.length (Nat.lt_succ_self _) behind known rfl
      have inner : ∀ c ∈ strip line, allowed c := fun c among => letters c (strip_subset among)
      have groups : ∀ (holds : Text → Bool) (content : Text → Text),
          (∀ index, holds (marker index) = false) → holds (strip line) = true →
          (∀ text, ∀ c ∈ content text, c ∈ text) →
          (∀ text ∈ (((line :: rest).map strip).takeWhile holds).map content,
            ∀ c ∈ text, allowed c) ∧
          Arranged allowed index
            (blocks lib ((((line :: rest).map strip).takeWhile holds).length - 1) [] rest)
            count := by
        intro holds content unmarked first keeps
        obtain ⟨plain, left⟩ := (Layout.plain letters behind).group unmarked
        constructor
        · intro text among c letter
          obtain ⟨origin, listed, rfl⟩ := List.mem_map.mp among
          exact plain origin listed c (keeps origin c letter)
        · rw [List.map_cons, List.takeWhile_cons_of_pos first, List.length_cons] at left ⊢
          rw [blocks_skip]
          refine ih _ ?_ left nothing rfl
          rw [List.length_drop, List.length_cons]
          omega
      rw [blocks]
      dsimp only
      cases heading : heading? (strip line) with
      | some parts =>
        obtain ⟨level, text⟩ := parts
        refine .flush blank known (.other rfl ?_ (next nothing))
        intro other among c letter
        cases List.mem_singleton.mp among
        unfold heading? at heading
        dsimp only at heading
        split at heading
        · cases heading
          exact inner c ((List.dropWhile_suffix _).subset (strip_subset letter))
        · cases heading
      | none =>
        dsimp only
        split
        · exact .flush blank known (.other rfl (fun _ absurd =>
            (List.not_mem_nil absurd).elim) (next nothing))
        split
        · next quoted =>
            obtain ⟨plain, later⟩ := groups isQuote quoteContent isQuote_marker quoted
              fun text c among => by
                unfold quoteContent at among
                split at among
                · exact List.mem_of_mem_drop among
                · exact absurd among List.not_mem_nil
            exact .flush blank known (.other rfl plain later)
        split
        · next bullet =>
            obtain ⟨plain, later⟩ := groups isBullet bulletContent isBullet_marker bullet
              fun text c among =>
                List.mem_of_mem_drop ((List.dropWhile_suffix _).subset among)
            exact .flush blank known (.other rfl plain later)
        split
        · next numbered =>
            obtain ⟨plain, later⟩ := groups (isNumbered lib) (numberedContent lib)
              isNumbered_marker numbered fun text c among =>
                (List.dropWhile_suffix _).subset (List.mem_of_mem_drop
                  ((List.dropWhile_suffix _).subset among))
            exact .flush blank known (.other rfl plain later)
        split
        · exact .flush blank known (next nothing)
        split
        · next coded =>
            obtain ⟨tail, suffix, front⟩ := List.any_eq_true.mp coded
            obtain ⟨behind, same⟩ := List.isPrefixOf_iff_prefix.mp front
            have zero : '\x00' ∈ tail := same ▸ List.mem_cons_self
            exact absurd (inner _ (((List.mem_tails _ _).mp suffix).subset zero)) solid
        · apply next
          intro other among
          rcases List.mem_append.mp among with among | among
          · exact known other among
          · cases List.mem_singleton.mp among
            exact inner

end

end BobbyBotique.Reader
