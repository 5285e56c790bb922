import Mathlib.Data.List.SplitBy
import Mathlib.Data.List.TakeWhile

/-!
# Text as a list of characters

The string operations of the source over lists of characters, and the cutting
of a text into pieces with blanks dropped at the cuts.
-/

namespace BobbyBotique

/-- A check of every letter of a list. -/
theorem forall_mem_of_all {A : Type} {holds : A → Prop} [DecidablePred holds] {letters : List A}
    (checked : (letters.all fun each => decide (holds each)) = true) :
    ∀ each ∈ letters, holds each :=
  fun each member => of_decide_eq_true (List.all_eq_true.mp checked each member)

/-- A test of characters is its own test of those below 128. -/
theorem agrees_below {test : Char → Bool} (c : Char) (_ : c.toNat < 128) : test c = test c := rfl

/-- Texts are compared by their letters. -/
theorem lawful_letters : LawfulBEq (List Char) := inferInstance

/-- `str.isspace` of one character. -/
def isSpace (c : Char) : Bool :=
  decide (9 ≤ c.toNat ∧ c.toNat ≤ 13) || decide (28 ≤ c.toNat ∧ c.toNat ≤ 32) ||
    [133, 160, 5760, 8232, 8233, 8239, 8287, 12288].contains c.toNat ||
    decide (8192 ≤ c.toNat ∧ c.toNat ≤ 8202)

/-- `str.lstrip`. -/
def lstrip (text : List Char) : List Char := text.dropWhile isSpace

/-- `str.strip`. -/
def strip (text : List Char) : List Char := (lstrip (lstrip text).reverse).reverse

/-- `str.split` at white space. -/
def splitWords (text : List Char) : List (List Char) :=
  (text.splitBy fun first second => isSpace first == isSpace second).filter fun group =>
    !group.all isSpace

/-- `" ".join`. -/
def joinWords (words : List (List Char)) : List Char := [' '].intercalate words

/-- `text.rfind(needle, 0, stop)`: the last place at which the needle stands before `stop`. -/
def rfind (needle text : List Char) (stop : Nat) : Option Nat :=
  (List.range (stop + 1)).reverse.find? fun start =>
    decide (start + needle.length ≤ stop) && needle.isPrefixOf (text.drop start)

/-- `text.find(needle, start, stop)` of one character. -/
def findChar (needle : Char) (text : List Char) (start stop : Nat) : Option Nat :=
  (List.range stop).find? fun place => decide (start ≤ place ∧ text[place]? = some needle)

theorem mem_lstrip {c : Char} (visible : isSpace c = false) {text : List Char}
    (member : c ∈ text) : c ∈ lstrip text := by
  rw [← List.takeWhile_append_dropWhile (p := isSpace) (l := text), List.mem_append] at member
  rcases member with blank | kept
  · exact absurd (visible.symm.trans (List.mem_takeWhile_imp blank)) Bool.false_ne_true
  · exact kept

theorem mem_strip {c : Char} (visible : isSpace c = false) {text : List Char}
    (member : c ∈ text) : c ∈ strip text := by
  refine List.mem_reverse.mpr (mem_lstrip visible (List.mem_reverse.mpr ?_))
  exact mem_lstrip visible member

theorem strip_isInfix (text : List Char) : strip text <:+: text := by
  have front := (List.dropWhile_suffix isSpace : lstrip text <:+ text)
  have back : lstrip (lstrip text).reverse <:+ (lstrip text).reverse :=
    List.dropWhile_suffix isSpace
  have inner : strip text <+: lstrip text := by
    have := List.reverse_prefix.mpr back
    rwa [List.reverse_reverse] at this
  exact inner.isInfix.trans front.isInfix

theorem strip_subset {c : Char} {text : List Char} (member : c ∈ strip text) : c ∈ text :=
  (strip_isInfix text).subset member

/-- A text with a visible letter has words. -/
theorem joinWords_splitWords_ne_nil {c : Char} (visible : isSpace c = false) {text : List Char}
    (member : c ∈ text) : joinWords (splitWords text) ≠ [] := by
  have grouped := List.flatten_splitBy (fun first second => isSpace first == isSpace second) text
  rw [← grouped, List.mem_flatten] at member
  obtain ⟨group, inside, stands⟩ := member
  have worded : group ∈ splitWords text := by
    refine List.mem_filter.mpr ⟨inside, ?_⟩
    rw [Bool.not_eq_true', List.all_eq_false]
    exact ⟨c, stands, by simp [visible]⟩
  have filled : ∀ word ∈ splitWords text, word ≠ [] := by
    intro word kept empty
    rw [empty] at kept
    exact Bool.false_ne_true (List.mem_filter.mp kept).2
  generalize splitWords text = words at worded filled
  cases words with
  | nil => cases worded
  | cons word rest =>
    obtain ⟨first, letters, spelled⟩ :=
      List.exists_cons_of_ne_nil (filled word List.mem_cons_self)
    cases rest with
    | nil | cons => simp [joinWords, List.intercalate, spelled]

theorem rfind_le {needle text : List Char} {stop place : Nat}
    (found : rfind needle text stop = some place) : place + needle.length ≤ stop := by
  have holds := List.find?_some found
  simp only [Bool.and_eq_true, decide_eq_true_eq] at holds
  exact holds.1

theorem rfind_char {needle : Char} {text : List Char} {stop place : Nat}
    (found : rfind [needle] text stop = some place) : text[place]? = some needle := by
  have holds := List.find?_some found
  simp only [Bool.and_eq_true, List.isPrefixOf_iff_prefix] at holds
  obtain ⟨rest, same⟩ := holds.2
  rw [← List.head?_drop, ← same]
  rfl

/-- A letter of a text is a prefix of what stands from there on. -/
theorem prefixed_of_getElem? {needle : Char} {text : List Char} {place : Nat}
    (stands : text[place]? = some needle) : [needle].isPrefixOf (text.drop place) = true := by
  rw [← List.head?_drop] at stands
  cases rest : text.drop place with
  | nil =>
    rw [rest] at stands
    cases stands
  | cons head tail =>
    rw [rest] at stands
    cases stands
    simp

/-- Behind the last place of a letter before `stop` the letter does not stand. -/
theorem rfind_last {needle : Char} {text : List Char} {stop place : Nat}
    (found : rfind [needle] text stop = some place) {later : Nat} (behind : place < later)
    (before : later < stop) : text[later]? ≠ some needle := by
  intro stands
  have descending : (List.range (stop + 1)).reverse.Pairwise (· > ·) :=
    List.pairwise_reverse.mpr List.pairwise_lt_range
  obtain ⟨_, first, second, same, none⟩ := List.find?_eq_some_iff_append.mp found
  have member : later ∈ (List.range (stop + 1)).reverse := by
    rw [List.mem_reverse, List.mem_range]
    exact Nat.lt_succ_of_lt before
  rw [same] at member descending
  rcases List.mem_append.mp member with passed | ahead
  · have fails := none later passed
    have prefixed := prefixed_of_getElem? stands
    simp [prefixed, Nat.succ_le_of_lt before] at fails
  · have ordered := List.pairwise_append.mp descending
    rcases List.mem_cons.mp ahead with rfl | ahead
    · exact absurd behind (Nat.lt_irrefl _)
    · have below := List.rel_of_pairwise_cons ordered.2.1 ahead
      exact absurd behind (Nat.not_lt.mpr (Nat.le_of_lt below))

theorem rfind_none {needle : Char} {text : List Char} {stop : Nat}
    (absent : rfind [needle] text stop = none) {place : Nat} (before : place < stop) :
    text[place]? ≠ some needle := by
  intro stands
  have fails := List.find?_eq_none.mp absent place (by
    rw [List.mem_reverse, List.mem_range]
    exact Nat.lt_succ_of_lt before)
  have prefixed := prefixed_of_getElem? stands
  simp [prefixed, Nat.succ_le_of_lt before] at fails

/-- A word with a letter that does not stand before `stop` is not found. -/
theorem rfind_absent {needle text : List Char} {stop : Nat} (letter : Char)
    (member : letter ∈ needle) (absent : letter ∉ text.take stop) :
    rfind needle text stop = none := by
  refine List.find?_eq_none.mpr fun place _ holds => ?_
  simp only [Bool.and_eq_true, decide_eq_true_eq, List.isPrefixOf_iff_prefix] at holds
  obtain ⟨ends, rest, same⟩ := holds
  refine absent ?_
  obtain ⟨index, bound, rfl⟩ := List.mem_iff_getElem.mp member
  have stands : text[place + index]? = some needle[index] := by
    rw [← List.getElem?_drop, ← same, List.getElem?_append_left bound,
      List.getElem?_eq_getElem bound]
  rw [List.mem_take_iff_getElem]
  obtain ⟨inside, letter⟩ := List.getElem?_eq_some_iff.mp stands
  exact ⟨place + index, by omega, letter⟩

theorem rfind_eq {needle : Char} {text : List Char} {stop place : Nat}
    (stands : text[place]? = some needle) (before : place < stop)
    (last : needle ∉ (text.take stop).drop (place + 1)) :
    rfind [needle] text stop = some place := by
  cases found : rfind [needle] text stop with
  | none => exact absurd stands (rfind_none found before)
  | some other =>
    rcases Nat.lt_trichotomy other place with earlier | rfl | later
    · exact absurd stands (rfind_last found earlier before)
    · rfl
    · have bound := rfind_le found
      have again := rfind_char found
      change other + 1 ≤ stop at bound
      refine absurd ?_ last
      rw [List.mem_iff_getElem?]
      refine ⟨other - (place + 1), ?_⟩
      rw [List.getElem?_drop, List.getElem?_take_of_lt (by omega)]
      have index : place + 1 + (other - (place + 1)) = other := by omega
      rw [index, again]

theorem findChar_none {needle : Char} {text : List Char} {start stop : Nat}
    (absent : ∀ place, start ≤ place → place < stop → text[place]? ≠ some needle) :
    findChar needle text start stop = none := by
  refine List.find?_eq_none.mpr fun place member => ?_
  intro holds
  obtain ⟨from', stands⟩ := of_decide_eq_true holds
  exact absent place from' (List.mem_range.mp member) stands

/--
A text is cut into pieces from its front.  Only blanks are dropped at a cut, and
`left` is what stands behind the last one.
-/
inductive Pieces {A : Type} (blank : A → Bool) : List A → List (List A) → List A → Prop where
  | done (left : List A) : Pieces blank left [] left
  | cut {rest left : List A} {pieces : List (List A)} (piece gap : List A)
      (dropped : ∀ each ∈ gap, blank each = true) (behind : Pieces blank rest pieces left) :
      Pieces blank (piece ++ gap ++ rest) (piece :: pieces) left

namespace Pieces

variable {A : Type} {blank : A → Bool} {text left : List A} {pieces : List (List A)}

theorem whole (text : List A) : Pieces blank text [text] [] := by
  have cuts : Pieces blank (text ++ [] ++ []) [text] [] := .cut text [] (by simp) (.done [])
  rwa [List.append_nil, List.append_nil] at cuts

/-- But for blanks the text is its pieces in their order. -/
theorem joined (cuts : Pieces blank text pieces left) :
    text.filter (fun each => !blank each) =
      (pieces.flatten ++ left).filter fun each => !blank each := by
  induction cuts with
  | done left => rfl
  | @cut rest left pieces piece gap dropped _ ih =>
    have gone : gap.filter (fun each => !blank each) = [] := by
      rw [List.filter_eq_nil_iff]
      intro each member
      rw [dropped each member]
      exact Bool.false_ne_true
    simp only [List.filter_append, List.flatten_cons, gone, ih, List.nil_append, List.append_assoc]

end Pieces

end BobbyBotique
