import BobbyBotique.Foundation.Text

/-!
# Pieces that overlap

A text that is handed out piece by piece, where a piece may begin with an end of the piece
before.  What counts are the letters that are no white space.
-/

namespace BobbyBotique

/-- The letters of a text that are no white space. -/
def visible (text : List Char) : List Char := text.filter fun c => !isSpace c

@[simp] theorem visible_nil : visible [] = [] := rfl

@[simp] theorem visible_append (first second : List Char) :
    visible (first ++ second) = visible first ++ visible second := List.filter_append _ _

theorem visible_eq_nil {text : List Char} :
    visible text = [] ↔ ∀ c ∈ text, isSpace c = true := by
  simp [visible]

theorem visible_lstrip (text : List Char) : visible (lstrip text) = visible text := by
  have blank : visible (text.takeWhile isSpace) = [] :=
    visible_eq_nil.mpr fun c member => List.mem_takeWhile_imp member
  have parts := congrArg visible (List.takeWhile_append_dropWhile (p := isSpace) (l := text))
  rwa [visible_append, blank, List.nil_append] at parts

theorem visible_reverse (text : List Char) : visible text.reverse = (visible text).reverse :=
  List.filter_reverse

@[simp] theorem visible_strip (text : List Char) : visible (strip text) = visible text := by
  rw [strip, visible_reverse, visible_lstrip, visible_reverse, visible_lstrip, List.reverse_reverse]

theorem strip_eq_nil_iff {text : List Char} : strip text = [] ↔ visible text = [] := by
  constructor
  · intro empty
    rw [← visible_strip, empty]
    rfl
  · intro blank
    have dropped : lstrip text = [] := List.dropWhile_eq_nil_iff.mpr (visible_eq_nil.mp blank)
    rw [strip, dropped]
    rfl

theorem lstrip_append (first second : List Char) :
    lstrip (first ++ second) =
      lstrip first ++ if lstrip first = [] then lstrip second else second := by
  induction first with
  | nil => rfl
  | cons c rest ih =>
    by_cases blank : isSpace c = true
    · simpa [lstrip, List.dropWhile_cons, blank] using ih
    · simp [lstrip, blank]

/-! ## One piece -/

/-- A piece begins with an end of the piece before, of `overlap` letters at most, and goes on
with fresh letters. -/
def Continues (overlap : Nat) (previous piece fresh : List Char) : Prop :=
  ∃ shared kept, piece = shared ++ kept ∧ shared.length ≤ overlap ∧
    visible shared <:+ visible previous ∧ visible kept = fresh

namespace Continues

variable {overlap : Nat} {previous piece fresh : List Char}

/-- A piece that shares nothing. -/
theorem all (overlap : Nat) (previous piece : List Char) :
    Continues overlap previous piece (visible piece) :=
  ⟨[], piece, rfl, Nat.zero_le overlap, List.nil_suffix, rfl⟩

/-- A piece that begins with the end of the piece before. -/
theorem tail (overlap : Nat) (previous more : List Char) :
    Continues overlap previous (previous.drop (previous.length - overlap) ++ more)
      (visible more) := by
  refine ⟨_, more, rfl, ?_, (List.drop_suffix _ previous).filter _, rfl⟩
  rw [List.length_drop]
  omega

theorem append (continues : Continues overlap previous piece fresh) (more : List Char) :
    Continues overlap previous (piece ++ more) (fresh ++ visible more) := by
  obtain ⟨shared, kept, rfl, short, ends, rfl⟩ := continues
  exact ⟨shared, kept ++ more, List.append_assoc _ _ _, short, ends, visible_append _ _⟩

/-- Only what is visible of the piece before counts. -/
theorem mono {other : List Char} (continues : Continues overlap previous piece fresh)
    (within : visible previous <:+ visible other) : Continues overlap other piece fresh := by
  obtain ⟨shared, kept, whole, short, ends, letters⟩ := continues
  exact ⟨shared, kept, whole, short, ends.trans within, letters⟩

theorem blank (continues : Continues overlap previous piece fresh) (none : visible piece = []) :
    fresh = [] := by
  obtain ⟨shared, kept, rfl, -, -, rfl⟩ := continues
  rw [visible_append] at none
  exact (List.append_eq_nil_iff.mp none).2

theorem sublist (continues : Continues overlap previous piece fresh) :
    fresh.Sublist (visible piece) := by
  obtain ⟨shared, kept, rfl, -, -, rfl⟩ := continues
  rw [visible_append]
  exact List.sublist_append_right _ _

theorem lstrip (continues : Continues overlap previous piece fresh) :
    Continues overlap previous (lstrip piece) fresh := by
  obtain ⟨shared, kept, rfl, short, ends, rfl⟩ := continues
  refine ⟨BobbyBotique.lstrip shared, _, lstrip_append shared kept, ?_, ?_, ?_⟩
  · exact (List.dropWhile_sublist isSpace).length_le.trans short
  · rwa [visible_lstrip]
  · split
    · exact visible_lstrip kept
    · rfl

/-- White space at the end of a piece does not count. -/
theorem rstrip (continues : Continues overlap previous piece fresh) :
    Continues overlap previous (BobbyBotique.lstrip piece.reverse).reverse fresh := by
  obtain ⟨shared, kept, rfl, short, ends, rfl⟩ := continues
  rw [List.reverse_append, lstrip_append, List.reverse_append]
  refine ⟨_, _, rfl, ?_, ?_, ?_⟩
  · rw [List.length_reverse]
    split
    · have shorter := (List.dropWhile_sublist isSpace (l := shared.reverse)).length_le
      rw [List.length_reverse] at shorter
      exact shorter.trans short
    · rwa [List.length_reverse]
  · split
    · rwa [visible_reverse, visible_lstrip, visible_reverse, List.reverse_reverse]
    · rwa [List.reverse_reverse]
  · rw [visible_reverse, visible_lstrip, visible_reverse, List.reverse_reverse]

theorem strip (continues : Continues overlap previous piece fresh) :
    Continues overlap previous (strip piece) fresh := continues.lstrip.rstrip

/-- A piece that is cut behind its overlap. -/
theorem take (continues : Continues overlap previous piece fresh) {size : Nat}
    (wide : overlap ≤ size) : ∃ early, Continues overlap previous (piece.take size) early ∧
      fresh = early ++ visible (piece.drop size) := by
  obtain ⟨shared, kept, rfl, short, ends, rfl⟩ := continues
  have inside : shared.length ≤ size := short.trans wide
  refine ⟨visible (kept.take (size - shared.length)), ?_, ?_⟩
  · refine ⟨shared, kept.take (size - shared.length), ?_, short, ends, rfl⟩
    rw [List.take_append, List.take_of_length_le inside]
  · rw [← visible_append, List.drop_append, List.drop_of_length_le inside, List.nil_append,
      List.take_append_drop]

/-- The rest of a text behind a window, with an end of the window in front. -/
theorem window (text : List Char) {size : Nat} (wide : overlap ≤ size) :
    Continues overlap (text.take size) (text.drop (size - overlap))
      (visible (text.drop size)) := by
  refine ⟨(text.drop (size - overlap)).take overlap, text.drop size, ?_, ?_, ?_, rfl⟩
  · have cut := (List.take_append_drop overlap (text.drop (size - overlap))).symm
    rwa [List.drop_drop, Nat.sub_add_cancel wide] at cut
  · rw [List.length_take]
    exact Nat.min_le_left _ _
  · have ends : (text.drop (size - overlap)).take overlap <:+ text.take size := by
      rw [List.take_drop, Nat.sub_add_cancel wide]
      exact List.drop_suffix _ _
    exact ends.filter _

end Continues

/-! ## Many pieces -/

/-- Pieces each of which continues the one before; `letters` are the fresh ones, in order. -/
inductive Overlapping (overlap : Nat) : List (List Char) → List Char → Prop where
  | nil : Overlapping overlap [] []
  | snoc {pieces : List (List Char)} {letters piece fresh : List Char}
      (before : Overlapping overlap pieces letters)
      (continues : Continues overlap (pieces.getLast?.getD []) piece fresh) :
      Overlapping overlap (pieces ++ [piece]) (letters ++ fresh)

namespace Overlapping

variable {overlap : Nat} {pieces : List (List Char)} {letters : List Char}

theorem letters_nil (overlapping : Overlapping overlap [] letters) : letters = [] := by
  generalize none : ([] : List (List Char)) = pieces at overlapping
  cases overlapping with
  | nil => rfl
  | snoc before continues => exact absurd none.symm (List.concat_ne_nil _ _)

theorem unsnoc {piece : List Char} (overlapping : Overlapping overlap (pieces ++ [piece]) letters) :
    ∃ before fresh, Overlapping overlap pieces before ∧
      Continues overlap (pieces.getLast?.getD []) piece fresh ∧ letters = before ++ fresh := by
  generalize whole : pieces ++ [piece] = all at overlapping
  cases overlapping with
  | nil => exact absurd whole (List.concat_ne_nil _ _)
  | snoc before continues =>
    obtain ⟨rfl, same⟩ := List.append_inj' whole rfl
    cases same
    exact ⟨_, _, before, continues, rfl⟩

/-- The fresh letters stand in the pieces, in their order. -/
theorem sublist (overlapping : Overlapping overlap pieces letters) :
    letters.Sublist (visible pieces.flatten) := by
  induction overlapping with
  | nil => exact List.Sublist.refl []
  | snoc before continues ih =>
    rw [List.flatten_concat, visible_append]
    exact ih.append continues.sublist

end Overlapping

end BobbyBotique
