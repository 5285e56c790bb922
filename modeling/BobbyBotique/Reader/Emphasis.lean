import BobbyBotique.Reader.Bionic
import BobbyBotique.Reader.Inert

/-!
# Emphasis alone

The inserted elements stand at the words of the parts that are changed, and there is
one at each of these words.
-/

namespace BobbyBotique.Reader

open Delivery

variable {python : Interpreter}

/-! ## Words -/

theorem escapeChar_word {c : Char} (word : isWord python c = true) : escapeChar c = [c] := by
  have other : ∀ special : Char, special.toNat < 128 → special.isAlphanum = false →
      special ≠ '_' → c ≠ special := by
    rintro special small unlisted ne rfl
    rw [isWord, python.ascii c small, unlisted, Bool.false_or, beq_iff_eq] at word
    exact ne word
  rw [escapeChar, entity?]
  · rfl
  all_goals exact other _ (by decide) (by decide) (by decide)

theorem escape_word {word : Text} (letters : ∀ c ∈ word, isWord python c = true) :
    escape word = word := by
  induction word with
  | nil => rfl
  | cons c word ih =>
    rw [escape, List.flatMap_cons, escapeChar_word (letters c List.mem_cons_self)]
    exact congrArg _ (ih fun d member => letters d (List.mem_cons_of_mem _ member))

theorem boldLength_pos (length : Nat) : 0 < boldLength length := by
  rw [boldLength]
  split
  · decide
  · split
    · decide
    · split <;> decide

@[simp] theorem erased_append (first second : List Piece) :
    erased (first ++ second) = erased first ++ erased second := List.flatMap_append

@[simp] theorem erased_cons (piece : Piece) (pieces : List Piece) :
    erased (piece :: pieces) = piece.erased ++ erased pieces := List.flatMap_cons

theorem boldWord_eq {word : Text} (letters : ∀ c ∈ word, isWord python c = true) :
    boldWord word = [.bold (word.take (boldLength word.length)),
      .kept (word.drop (boldLength word.length))] := by
  rw [boldWord, escape_word fun c member => letters c (List.mem_of_mem_take member),
    escape_word fun c member => letters c (List.mem_of_mem_drop member)]

theorem erased_boldWord {word : Text} (letters : ∀ c ∈ word, isWord python c = true) :
    erased (boldWord word) = word := by
  rw [boldWord_eq letters]
  exact (congrArg _ (List.append_nil _)).trans (List.take_append_drop _ word)

theorem erased_flush {word : Text} (letters : ∀ c ∈ word, isWord python c = true) :
    erased (if word = [] then [] else boldWord word) = word := by
  split
  · rename_i empty
    exact empty.symm
  · exact erased_boldWord letters

/-- A letter behind a word that is being read. -/
theorem letters_snoc {word : Text} {c : Char} (letters : ∀ d ∈ word, isWord python d = true)
    (one : isWord python c = true) : ∀ d ∈ word ++ [c], isWord python d = true := by
  intro d member
  rcases List.mem_append.mp member with old | new
  · exact letters d old
  · rwa [List.mem_singleton.mp new]

/-- Without the inserted elements a text is as it was. -/
theorem erased_bionicText {word text : Text} (letters : ∀ c ∈ word, isWord python c = true) :
    erased (bionicText python word text) = word ++ text := by
  induction text generalizing word with
  | nil =>
    cases word with
    | nil => rfl
    | cons c word => exact (erased_boldWord letters).trans (List.append_nil _).symm
  | cons c text ih =>
    rw [bionicText]
    split
    · rename_i one
      rw [ih (letters_snoc letters one), List.append_assoc]
      rfl
    · rw [erased_append, erased_flush letters, erased_cons, ih (by simp)]
      rfl

theorem bold_mem_boldWord {word head : Text} (letters : ∀ c ∈ word, isWord python c = true)
    (one : word ≠ []) (member : .bold head ∈ boldWord word) :
    head ≠ [] ∧ ∀ c ∈ head, isWord python c = true := by
  rw [boldWord_eq letters] at member
  obtain rfl : head = word.take (boldLength word.length) := by simpa using member
  refine ⟨?_, fun c inside => letters c (List.mem_of_mem_take inside)⟩
  rw [Ne, List.take_eq_nil_iff, not_or]
  exact ⟨(boldLength_pos _).ne', one⟩

/-- What is put into bold is letters of a word. -/
theorem bold_mem_bionicText {word text head : Text}
    (letters : ∀ c ∈ word, isWord python c = true)
    (member : .bold head ∈ bionicText python word text) :
    head ≠ [] ∧ ∀ c ∈ head, isWord python c = true := by
  induction text generalizing word with
  | nil =>
    cases word with
    | nil => exact absurd member List.not_mem_nil
    | cons c word => exact bold_mem_boldWord letters (List.cons_ne_nil _ _) member
  | cons c text ih =>
    rw [bionicText] at member
    split at member
    · rename_i one
      exact ih (letters_snoc letters one) member
    · rcases List.mem_append.mp member with flushed | later
      · split at flushed
        · exact absurd flushed List.not_mem_nil
        · rename_i one
          exact bold_mem_boldWord letters one flushed
      · exact @ih [] (by simp) (by simpa using later)

/-- An inserted element and letters of its word, up to the end of a text. -/
def BoldBefore (python : Interpreter) (pieces : List Piece) (text : Text) : Prop :=
  ∃ before head behind run, pieces = before ++ .bold head :: behind ∧
    text = erased before ++ run ∧ run ≠ [] ∧ ∀ d ∈ run, isWord python d = true

theorem boldBefore_boldWord {word text : Text} (letters : ∀ d ∈ word, isWord python d = true)
    (filled : text ≠ []) (front : text <+: word) (tail : List Piece) :
    BoldBefore python (boldWord word ++ tail) text :=
  ⟨[], _, _, text, rfl, rfl, filled, fun d member => letters d (front.subset member)⟩

theorem BoldBefore.append {pieces : List Piece} {text : Text}
    (stands : BoldBefore python pieces text) (front back : List Piece) :
    BoldBefore python (front ++ pieces ++ back) (erased front ++ text) := by
  obtain ⟨before, head, behind, run, rfl, rfl, filled, worded⟩ := stands
  exact ⟨front ++ before, head, behind ++ back, run, by simp, by simp, filled, worded⟩

/-- The bold front of a word stands before each letter of the word. -/
theorem bold_before_letter {word text first second : Text} {c : Char}
    (letters : ∀ d ∈ word, isWord python d = true) (same : word ++ text = first ++ c :: second)
    (one : isWord python c = true) :
    BoldBefore python (bionicText python word text) (first ++ [c]) := by
  induction text generalizing word first with
  | nil =>
    have front : first ++ [c] <+: word := ⟨second, by simpa using same.symm⟩
    cases word with
    | nil => exact absurd (List.prefix_nil.mp front) (by simp)
    | cons d word =>
      have found := boldBefore_boldWord letters (by simp) front []
      rwa [List.append_nil] at found
  | cons d text ih =>
    rw [bionicText]
    split
    · rename_i next
      exact ih (letters_snoc letters next) (by simpa using same)
    · rename_i apart
      -- The letter is in the word that ends here, or behind it.
      rcases List.append_eq_append_iff.mp same with ⟨middle, rfl, split⟩ | ⟨middle, rfl, split⟩
      · cases middle with
        | nil =>
          obtain ⟨rfl, _⟩ := List.cons.inj split
          exact absurd one apart
        | cons e middle =>
          obtain ⟨rfl, rest⟩ := List.cons.inj split
          have later := (@ih [] middle (by simp) rest).append
            ((if word = [] then [] else boldWord word) ++ [.kept [d]]) []
          rw [erased_append, erased_flush letters] at later
          simpa [erased, Piece.erased] using later
      · cases middle with
        | nil =>
          obtain ⟨rfl, _⟩ := List.cons.inj split
          exact absurd one apart
        | cons e middle =>
          obtain ⟨rfl, _⟩ := List.cons.inj split
          rw [if_neg (by simp)]
          exact boldBefore_boldWord letters (by simp) ⟨middle, by simp⟩ _

/-! ## Parts -/

theorem splitTags_flatten (inTag : Bool) (part text : Text) :
    (splitTags inTag part text).flatten = part ++ text := by
  induction text generalizing inTag part with
  | nil => cases inTag <;> simp [splitTags]
  | cons c text ih =>
    cases inTag with
    | false =>
      rw [splitTags]
      split
      · rename_i opens
        rw [List.flatten_cons, ih, opens.1]
        rfl
      · rw [ih, List.append_assoc]
        rfl
    | true =>
      rw [splitTags]
      split
      · rename_i closes
        rw [List.flatten_cons, ih, closes, List.append_assoc]
        rfl
      · rw [ih, List.append_assoc]
        rfl

/-- In a tag the first part goes on as it began. -/
theorem splitTags_true {part front text : Text} {before behind : List Text} {c : Char}
    (same : splitTags true (c :: front) text = before ++ part :: behind)
    (text' : part.head? ≠ some c) : before ≠ [] := by
  rintro rfl
  induction text generalizing front with
  | nil =>
    obtain ⟨rfl, _⟩ := List.cons.inj same
    exact text' rfl
  | cons d text ih =>
    rw [splitTags] at same
    split at same
    · obtain ⟨rfl, _⟩ := List.cons.inj same
      exact text' rfl
    · exact ih same

theorem getLast?_flatten_cons {first : Text} {before : List Text} {c : Char}
    (last : before.flatten.getLast? = some c) :
    (first :: before).flatten.getLast? = some c := by
  rw [List.flatten_cons, List.getLast?_append, last]
  rfl

/-- A part that is no tag begins behind a `>` and ends before a `<`. -/
theorem splitTags_bounds {inTag : Bool} {part front text : Text} {before behind : List Text}
    (tagged : inTag = true → front.head? = some '<')
    (same : splitTags inTag front text = before ++ part :: behind)
    (plain : part.head? ≠ some '<') :
    (before = [] ∨ before.flatten.getLast? = some '>') ∧
      (behind = [] ∨ behind.flatten.head? = some '<') := by
  induction text generalizing inTag front before with
  | nil =>
    have single : [front] = before ++ part :: behind := by
      cases inTag <;> exact same
    cases before with
    | nil => exact ⟨.inl rfl, .inl (List.cons.inj single).2.symm⟩
    | cons first before => exact absurd (List.cons.inj single).2 (by simp)
  | cons c text ih =>
    cases inTag with
    | false =>
      rw [splitTags] at same
      split at same
      · cases before with
        | nil =>
          obtain ⟨_, rest⟩ := List.cons.inj same
          refine ⟨.inl rfl, .inr ?_⟩
          rw [← rest, splitTags_flatten]
          rfl
        | cons first before =>
          obtain ⟨_, rest⟩ := List.cons.inj same
          obtain ⟨begins, ends⟩ := ih (fun _ => rfl) rest
          have ended := begins.resolve_left (splitTags_true rest plain)
          exact ⟨.inr (getLast?_flatten_cons ended), ends⟩
      · exact ih (by simp) same
    | true =>
      have head := tagged rfl
      have kept : ∀ d, (front ++ [d]).head? = some '<' := by
        intro d
        rw [List.head?_append, head]
        rfl
      rw [splitTags] at same
      split at same
      · cases before with
        | nil =>
          obtain ⟨rfl, _⟩ := List.cons.inj same
          exact absurd (kept '>') plain
        | cons first before =>
          obtain ⟨rfl, rest⟩ := List.cons.inj same
          obtain ⟨begins, ends⟩ := ih (by simp) rest
          refine ⟨.inr ?_, ends⟩
          rcases begins with rfl | last
          · simp
          · exact getLast?_flatten_cons last
      · exact ih (fun _ => kept c) same

theorem markParts_snd (depth : Nat) (parts : List Text) :
    (markParts python depth parts).map Prod.snd = parts := by
  induction parts generalizing depth with
  | nil => rfl
  | cons part parts ih =>
    rw [markParts]
    split <;> rw [List.map_cons, ih]

/-- A part that is changed does not begin as a tag does. -/
theorem markParts_true {depth : Nat} {parts : List Text} {part : Text}
    (member : (true, part) ∈ markParts python depth parts) : part.head? ≠ some '<' := by
  induction parts generalizing depth with
  | nil => exact absurd member List.not_mem_nil
  | cons first parts ih =>
    rw [markParts] at member
    split at member
    · rcases List.mem_cons.mp member with same | later
      · exact absurd (congrArg Prod.fst same) (by simp)
      · exact ih later
    · rename_i plain
      rcases List.mem_cons.mp member with same | later
      · rw [(Prod.mk.inj same).2]
        exact plain
      · exact ih later

section

variable {html part : Text} {before behind : List (Bool × Text)}

theorem marked_flatten (html : Text) : (marked python html).flatMap Prod.snd = html := by
  rw [List.flatMap_def, marked, markParts_snd, splitTags_flatten, List.nil_append]

theorem marked_split (same : marked python html = before ++ (true, part) :: behind) :
    html = before.flatMap Prod.snd ++ part ++ behind.flatMap Prod.snd := by
  have whole := @marked_flatten python html
  rw [same, List.flatMap_append, List.flatMap_cons] at whole
  rw [← whole, List.append_assoc]

theorem marked_bounds (same : marked python html = before ++ (true, part) :: behind) :
    (before.flatMap Prod.snd = [] ∨ (before.flatMap Prod.snd).getLast? = some '>') ∧
      (behind.flatMap Prod.snd = [] ∨ (behind.flatMap Prod.snd).head? = some '<') := by
  have plain : part.head? ≠ some '<' := by
    refine @markParts_true python 0 (splitTags false [] html) part ?_
    rw [marked] at same
    rw [same]
    simp
  have split : splitTags false [] html = before.map Prod.snd ++ part :: behind.map Prod.snd := by
    rw [← @markParts_snd python 0 (splitTags false [] html), ← marked, same]
    simp
  rw [List.flatMap_def, List.flatMap_def]
  refine (splitTags_bounds (by simp) split plain).imp (Or.imp_left ?_) (Or.imp_left ?_)
  · intro empty
    rw [empty]
    rfl
  · intro empty
    rw [empty]
    rfl

end

/-! ## Pieces -/

theorem erased_partPieces (part : Bool × Text) : erased (partPieces python part) = part.2 := by
  rcases part with ⟨changed, part⟩
  cases changed with
  | false => exact List.append_nil part
  | true => exact erased_bionicText (by simp)

theorem erased_parts (parts : List (Bool × Text)) :
    erased (parts.flatMap (partPieces python)) = parts.flatMap Prod.snd := by
  induction parts with
  | nil => rfl
  | cons part parts ih =>
    rw [List.flatMap_cons, erased_append, erased_partPieces, ih, List.flatMap_cons]

/-- A member of a list made part by part comes from one of the parts. -/
theorem flatMap_split {A B : Type} {made : A → List B} {parts : List A} {before behind : List B}
    {one : B} (same : parts.flatMap made = before ++ one :: behind) :
    ∃ front part back first second, parts = front ++ part :: back ∧
      made part = first ++ one :: second ∧ before = front.flatMap made ++ first := by
  induction parts generalizing before with
  | nil => exact absurd same (by simp)
  | cons part parts ih =>
    rw [List.flatMap_cons] at same
    rcases List.append_eq_append_iff.mp same with ⟨middle, rfl, rest⟩ | ⟨middle, found, rest⟩
    · obtain ⟨front, inner, back, first, second, rfl, made', rfl⟩ := ih rest
      exact ⟨part :: front, inner, back, first, second, rfl, made', by simp⟩
    · cases middle with
      | nil =>
        obtain ⟨front, inner, back, first, second, rfl, made', empty⟩ :=
          @ih [] (by simpa using rest.symm)
        refine ⟨part :: front, inner, back, first, second, rfl, made', ?_⟩
        rw [List.flatMap_cons, List.append_assoc, ← empty, found, List.append_nil, List.append_nil]
      | cons first middle =>
        obtain ⟨rfl, _⟩ := List.cons.inj rest
        exact ⟨[], part, parts, before, middle, rfl, found, by simp⟩

/-- An inserted element holds letters of a word of a part that is changed. -/
theorem bold_split {html head : Text} {before behind : List Piece}
    (same : bionicPieces python html = before ++ .bold head :: behind) :
    ∃ front part back, marked python html = front ++ (true, part) :: back ∧ head ≠ [] ∧
      (∀ c ∈ head, isWord python c = true) ∧ ∃ first second, part = first ++ head ++ second ∧
        (erased before).length = (front.flatMap Prod.snd).length + first.length := by
  obtain ⟨front, part, back, first, second, split, made, rfl⟩ := flatMap_split same
  rcases part with ⟨changed, part⟩
  cases changed with
  | false =>
    refine absurd (made ▸ List.mem_append_right first List.mem_cons_self) ?_
    exact fun member => by simp [partPieces] at member
  | true =>
    have member : .bold head ∈ bionicText python [] part := by
      rw [partPieces] at made
      rw [made]
      simp
    obtain ⟨filled, worded⟩ := bold_mem_bionicText (by simp) member
    refine ⟨front, part, back, split, filled, worded, erased first, erased second, ?_, ?_⟩
    · have whole := @erased_partPieces python (true, part)
      rw [made] at whole
      refine whole.symm.trans ?_
      simp [Piece.erased]
    · rw [erased_append, List.length_append, erased_parts]

/-- Before each letter of a word of such a part an element was inserted in the word. -/
theorem bold_of_letter {html part first second : Text} {front back : List (Bool × Text)} {c : Char}
    (split : marked python html = front ++ (true, part) :: back)
    (same : part = first ++ c :: second) (one : isWord python c = true) :
    ∃ before head behind run, bionicPieces python html = before ++ .bold head :: behind ∧
      front.flatMap Prod.snd ++ first ++ [c] = erased before ++ run ∧ run ≠ [] ∧
      ∀ d ∈ run, isWord python d = true := by
  have found : BoldBefore python (bionicText python [] part) (first ++ [c]) :=
    bold_before_letter (by simp) same one
  obtain ⟨before, head, behind, run, pieces, place, filled, worded⟩ :=
    found.append (front.flatMap (partPieces python)) (back.flatMap (partPieces python))
  refine ⟨before, head, behind, run, ?_, ?_, filled, worded⟩
  · rw [bionicPieces, split, List.flatMap_append, List.flatMap_cons, ← pieces]
    simp [partPieces]
  · rw [← place, erased_parts, List.append_assoc]

/-! ## References -/

theorem IsReference.letters {reference : Text} (is : IsReference reference) :
    ∀ c ∈ reference, c ≠ '<' ∧ c ≠ '>' := by
  obtain ⟨name, rfl, letters, named, _, alnum⟩ := is
  have inner : ∀ c ∈ letters, c ≠ '<' ∧ c ≠ '>' := by
    intro c member
    constructor
    · rintro rfl
      exact absurd (alnum _ member) (by decide)
    · rintro rfl
      exact absurd (alnum _ member) (by decide)
  intro c member
  simp only [List.cons_append, List.mem_cons, List.mem_append, List.not_mem_nil, or_false]
    at member
  rcases member with rfl | member | rfl
  · decide
  · rcases named with rfl | rfl
    · exact inner c member
    · rcases List.mem_cons.mp member with rfl | member
      · decide
      · exact inner c member
  · decide

/-- A reference has a letter of a word behind its first letter. -/
theorem IsReference.word {reference : Text} (is : IsReference reference) :
    ∃ lead c rest, reference = '&' :: lead ++ c :: rest ∧ rest ≠ [] ∧
      isWord python c = true := by
  obtain ⟨name, rfl, letters, named, filled, alnum⟩ := is
  obtain ⟨c, letters, rfl⟩ := List.exists_cons_of_ne_nil filled
  have worded : isWord python c = true := by
    have known : c.isAlphanum = true := alnum c List.mem_cons_self
    have small : c.toNat < 128 := by
      delta Char.isAlphanum at known
      delta Char.isAlpha Char.isDigit at known
      delta Char.isUpper Char.isLower at known
      simp only [Bool.or_eq_true, Bool.and_eq_true, decide_eq_true_eq,
        UInt32.le_iff_toNat_le] at known
      rw [Char.toNat]
      have upper : 'Z'.val.toNat = 90 := rfl
      have lower : 'z'.val.toNat = 122 := rfl
      have digit : '9'.val.toNat = 57 := rfl
      omega
    rw [isWord, python.ascii c small, known, Bool.true_or]
  rcases named with rfl | rfl
  · exact ⟨[], c, letters ++ [';'], rfl, by simp, worded⟩
  · exact ⟨['#'], c, letters ++ [';'], rfl, by simp, worded⟩

/-- Letters without angle brackets that meet such a part lie in it. -/
theorem inside_of_meets {before part behind first middle second : Text}
    (same : before ++ part ++ behind = first ++ middle ++ second)
    (begins : before = [] ∨ before.getLast? = some '>')
    (ends : behind = [] ∨ behind.head? = some '<')
    (plain : ∀ c ∈ middle, c ≠ '<' ∧ c ≠ '>') {place : Nat}
    (inPart : before.length ≤ place ∧ place < before.length + part.length)
    (inMiddle : first.length ≤ place ∧ place < first.length + middle.length) :
    ∃ front back, part = front ++ middle ++ back ∧ first = before ++ front := by
  have met : ∀ index c, (before ++ part ++ behind)[index]? = some c → first.length ≤ index →
      index < first.length + middle.length → c ∈ middle := by
    intro index c read low high
    rw [same, List.append_assoc, List.getElem?_append_right low,
      List.getElem?_append_left (by omega)] at read
    exact List.mem_of_getElem? read
  have starts : before.length ≤ first.length := by
    by_contra late
    rcases begins with rfl | last
    · exact late (Nat.zero_le _)
    · refine (plain '>' (met (before.length - 1) '>' ?_ (by omega) (by omega))).2 rfl
      rw [List.append_assoc, List.getElem?_append_left (by omega), ← List.getLast?_eq_getElem?]
      exact last
  have stops : first.length + middle.length ≤ before.length + part.length := by
    by_contra long
    have total := congrArg List.length same
    simp only [List.length_append] at total
    rcases ends with rfl | head
    · rw [List.length_nil] at total
      omega
    · refine (plain '<' (met (before.length + part.length) '<' ?_ (by omega) (by omega))).1 rfl
      rw [List.getElem?_append_right (by simp), List.length_append, Nat.sub_self,
        ← List.head?_eq_getElem?]
      exact head
  obtain ⟨front, rfl⟩ : before <+: first :=
    List.prefix_of_prefix_length_le ⟨part ++ behind, by rw [← List.append_assoc, same]⟩
      ⟨middle ++ second, (List.append_assoc _ _ _).symm⟩ starts
  rw [List.append_assoc, List.append_assoc, List.append_assoc, List.append_cancel_left_eq] at same
  rw [List.length_append] at stops
  obtain ⟨back, rest⟩ : front ++ middle <+: part :=
    List.prefix_of_prefix_length_le ⟨second, by rw [List.append_assoc, ← same]⟩
      ⟨behind, rfl⟩ (by rw [List.length_append]; omega)
  exact ⟨front, back, rest.symm, rfl⟩

/-! ## The page -/

section

variable {html : Text}

theorem isWord_plain {c : Char} (word : isWord python c = true) : c ≠ '<' ∧ c ≠ '>' := by
  have other : ∀ special ∈ ['<', '>'], c ≠ special := by
    rintro special listed rfl
    have known := python.ascii c
    simp only [List.mem_cons, List.not_mem_nil, or_false] at listed
    rcases listed with rfl | rfl
    · rw [isWord, known (by decide)] at word
      exact absurd word (by decide)
    · rw [isWord, known (by decide)] at word
      exact absurd word (by decide)
  exact ⟨other _ (by simp), other _ (by simp)⟩

theorem not_isWord_ampersand : isWord python '&' ≠ true := by
  rw [isWord, python.ascii '&' (by decide)]
  decide

/-- A reference in a part that is changed is cut. -/
theorem OnlyEmphasis.plain (only : OnlyEmphasis html (bionicPieces python html)) {part : Text}
    (member : (true, part) ∈ marked python html) {reference : Text}
    (inner : reference <:+: part) : ¬IsReference reference := by
  intro is
  obtain ⟨front, back, split⟩ := List.append_of_mem member
  obtain ⟨lead, c, rest, rfl, filled, worded⟩ := @IsReference.word python _ is
  obtain ⟨first, second, rfl⟩ := inner
  obtain ⟨before, head, behind, run, pieces, place, nonempty, letters⟩ :=
    @bold_of_letter python html _ (first ++ '&' :: lead) (rest ++ second) front back c split
      (by simp) worded
  have whole := marked_split split
  refine only.whole before head behind pieces (front.flatMap Prod.snd ++ first)
    ('&' :: lead ++ c :: rest) (second ++ back.flatMap Prod.snd)
    (by rw [whole]; simp only [List.append_assoc]) is _ List.mem_cons_self ?_
  have lengths := congrArg List.length place
  have ran := List.length_pos_of_ne_nil nonempty
  have more := List.length_pos_of_ne_nil filled
  simp only [List.length_append, List.length_cons, List.length_nil] at lengths ⊢
  refine ⟨?_, by omega⟩
  -- The run holds no `&`, so it begins behind the one of the reference.
  by_contra early
  refine not_isWord_ampersand (letters '&' (List.mem_of_getElem? (i := (front.flatMap
    Prod.snd).length + first.length - (erased before).length) ?_))
  rw [← List.getElem?_append_right (by omega), ← place]
  simp

/-- A word of such a part stands where its first letters do. -/
theorem OnlyEmphasis.outside (only : OnlyEmphasis html (bionicPieces python html)) {part : Text}
    {front back : List (Bool × Text)} (split : marked python html = front ++ (true, part) :: back)
    {index : Nat} {c : Char} (read : part[index]? = some c) (worded : isWord python c = true) :
    (placesOf html)[(front.flatMap Prod.snd).length + index]? = some (some []) := by
  obtain ⟨bound, rfl⟩ := List.getElem?_eq_some_iff.mp read
  have same : part = part.take index ++ part[index] :: part.drop (index + 1) := by
    rw [← List.drop_eq_getElem_cons, List.take_append_drop]
  obtain ⟨before, head, behind, run, pieces, place, nonempty, letters⟩ :=
    bold_of_letter split same worded
  have whole : html = erased before ++ run ++
      (part.drop (index + 1) ++ back.flatMap Prod.snd) := by
    rw [← place]
    nth_rewrite 1 [marked_split split]
    nth_rewrite 1 [same]
    simp only [List.append_assoc, List.cons_append, List.nil_append]
  have stands := fun inner (inside : inner < run.length) =>
    @HtmlText.Reading.places_run (skipped.map String.toList) ⟨.text, []⟩ (erased before)
      (part.drop (index + 1) ++ back.flatMap Prod.snd) run
      (fun d member => isWord_plain (letters d member)) inner inside
  obtain ⟨filled, inner⟩ := only.inside before head behind pieces
  have first := inner 0 (List.length_pos_of_ne_nil filled)
  have ran := List.length_pos_of_ne_nil nonempty
  have lengths := congrArg List.length place
  simp only [List.length_append, List.length_cons, List.length_nil, List.length_take] at lengths
  rw [placesOf, HtmlText.places] at first ⊢
  rw [whole] at first ⊢
  rw [stands 0 ran] at first
  rw [← first, ← stands (run.length - 1) (by omega)]
  congr 1
  omega

theorem Fair.onlyEmphasis (fair : Fair python html) :
    OnlyEmphasis html (bionicPieces python html) where
  restored := by rw [bionicPieces, erased_parts, marked_flatten]
  inside := by
    intro before head behind pieces
    obtain ⟨front, part, back, split, filled, worded, first, second, rfl, length⟩ :=
      bold_split pieces
    refine ⟨filled, fun index inside => ?_⟩
    rw [length, Nat.add_assoc]
    refine fair.outside front _ back split (first.length + index) head[index] ?_
      (worded _ (List.getElem_mem inside))
    rw [List.append_assoc, List.getElem?_append_right (by omega), Nat.add_sub_cancel_left,
      List.getElem?_append_left inside, List.getElem?_eq_getElem inside]
  whole := by
    intro before head behind pieces first reference second same is place listed between
    obtain ⟨front, part, back, split, filled, worded, ahead, past, rfl, length⟩ :=
      bold_split pieces
    have long := List.length_pos_of_ne_nil filled
    obtain ⟨begins, ends⟩ := marked_bounds split
    -- A letter of the inserted element that the reference holds too.
    obtain ⟨meets, inPart, inReference⟩ : ∃ meets, ((front.flatMap Prod.snd).length ≤ meets ∧
          meets < (front.flatMap Prod.snd).length + (ahead ++ head ++ past).length) ∧
        first.length ≤ meets ∧ meets < first.length + reference.length := by
      simp only [List.length_append]
      simp only [List.mem_cons, List.not_mem_nil, or_false] at listed
      rcases listed with rfl | rfl
      · exact ⟨(erased before).length, by omega, by omega⟩
      · exact ⟨(erased before).length + head.length - 1, by omega, by omega⟩
    have whole := (marked_split split).symm.trans same
    obtain ⟨near, far, inner, _⟩ :=
      inside_of_meets whole begins ends is.letters inPart inReference
    refine fair.plain _ (split ▸ List.mem_append_right _ List.mem_cons_self) reference ?_ is
    rw [inner]
    exact ⟨near, far, rfl⟩

end

/-- Bionic reading changes the emphasis of a page alone exactly when the parts whose words it
changes hold no reference, and hold words only where HTML has text outside the elements that
are passed over. -/
theorem bionic_changes_emphasis_iff (lib : Library) (source : Text) :
    OnlyEmphasis (readerHtml lib source) (bionicPieces lib.python (readerHtml lib source)) ↔
      Fair lib.python (readerHtml lib source) :=
  ⟨fun only => ⟨fun _ member _ inner => only.plain member inner,
    fun _ _ _ split _ _ read worded => only.outside split read worded⟩, Fair.onlyEmphasis⟩

/-- An ampersand of the source is cut in two. -/
theorem ampersand_is_cut :
    written (bionicPieces asciiLibrary.python (readerHtml asciiLibrary "a & b".toList)) =
      "<p><b>a</b> &<b>a</b>mp; <b>b</b></p>".toList ∧
    ¬OnlyEmphasis (readerHtml asciiLibrary "a & b".toList)
      (bionicPieces asciiLibrary.python (readerHtml asciiLibrary "a & b".toList)) := by
  refine ⟨by decide +kernel, fun only => ?_⟩
  have member : (true, "a &amp; b".toList) ∈
      marked asciiLibrary.python (readerHtml asciiLibrary "a & b".toList) := by decide +kernel
  refine only.plain member (⟨"a ".toList, " b".toList, rfl⟩ : "&amp;".toList <:+: _) ?_
  exact ⟨"amp".toList, rfl, "amp".toList, .inl rfl, by decide, List.all_eq_true.mp rfl⟩

end BobbyBotique.Reader
