import BobbyBotique.Reader.Safety

/-!
# The markers are replaced

A line is free of the letter of the markers, or it is a marker.  Replacing one
marker changes the lines that are this marker and leaves the others, so the
replacements together put each fence where its marker stood.
-/

namespace BobbyBotique.Reader

open Delivery

/-! ## One replacement -/

theorem marker_eq (index : Nat) :
    marker index = "\x00CODE".toList ++ (Nat.toDigits 10 index ++ ['\x00']) :=
  List.append_assoc ..

theorem toDigits_inj {first second : Nat} (same : Nat.toDigits 10 first = Nat.toDigits 10 second) :
    first = second := by
  have values := congrArg (Nat.ofDigitChars 10 · 0) same
  simpa only [Nat.ofDigitChars_ten_toDigits] using values

/-- A marker at the front of the text is the marker that stands there. -/
theorem marker_front {first second : Nat} {rest : Text}
    (front : marker first <+: marker second ++ rest) : first = second := by
  obtain ⟨behind, same⟩ := front
  have solid : ∀ index, '\x00' ∉ Nat.toDigits 10 index := @not_mem_digits '\x00' (by decide)
  rw [marker_eq, marker_eq] at same
  simp only [List.append_assoc] at same
  have inner := List.append_cancel_left same
  apply toDigits_inj
  obtain ⟨tail, left, _⟩ := append_split (solid first) inner
  obtain ⟨_, right, _⟩ := append_split (solid second) inner.symm
  have lengths := congrArg List.length left
  have others := congrArg List.length right
  rw [List.length_append] at lengths others
  have none : tail = [] := List.length_eq_zero_iff.mp (by omega)
  rw [left, none, List.append_nil]

theorem marker_inj {first second : Nat} (same : marker first = marker second) :
    first = second := by
  apply @marker_front first second []
  rw [same]
  exact List.prefix_append _ _

/-- The line with its marker replaced. -/
def swap (index : Nat) (replacement line : Text) : Text :=
  if line = marker index then replacement else line

/-- A line without the letter of the markers, or a marker. -/
def Slot (line : Text) : Prop := '\x00' ∉ line ∨ ∃ index, line = marker index

theorem zero_mem_marker (index : Nat) : '\x00' ∈ marker index := by
  rw [marker_cons]
  exact List.mem_cons_self

theorem swap_solid {line : Text} (solid : '\x00' ∉ line) (index : Nat) (replacement : Text) :
    swap index replacement line = line := by
  unfold swap
  rw [if_neg]
  rintro rfl
  exact solid (zero_mem_marker index)

theorem replaceAll_cons {needle replacement : Text} {c : Char} {rest : Text}
    (absent : ¬needle <+: c :: rest) :
    replaceAll needle replacement (c :: rest) = c :: replaceAll needle replacement rest := by
  unfold replaceAll
  rw [resub, if_neg (fun front => absent (List.isPrefixOf_iff_prefix.mp front))]
  cases rest <;> rfl

theorem replaceAll_append {index : Nat} {replacement piece : Text} (solid : '\x00' ∉ piece)
    (rest : Text) :
    replaceAll (marker index) replacement (piece ++ rest) =
      piece ++ replaceAll (marker index) replacement rest := by
  induction piece with
  | nil => rfl
  | cons c piece ih =>
    rw [List.cons_append, replaceAll_cons, ih fun among => solid (List.mem_cons_of_mem c among)]
    · rfl
    · rintro ⟨behind, same⟩
      rw [marker_cons] at same
      obtain ⟨rfl, _⟩ := List.cons.inj same
      exact solid List.mem_cons_self

/-- The text before a letter has no part in a replacement. -/
theorem resub_before {matchAt : Option Char → Text → Option (Nat × Text)}
    (free : ∀ before other word, matchAt before word = matchAt other word)
    (before other : Option Char) (word : Text) :
    resub matchAt 0 before word = resub matchAt 0 other word := by
  cases word with
  | nil => rfl
  | cons c rest => rw [resub, resub, free before other]

theorem replaceAll_marker (index : Nat) (replacement rest : Text) :
    replaceAll (marker index) replacement (marker index ++ rest) =
      replacement ++ replaceAll (marker index) replacement rest := by
  have front : (marker index).isPrefixOf (marker index ++ rest) = true :=
    List.isPrefixOf_iff_prefix.mpr (List.prefix_append _ _)
  obtain ⟨c, body, shape⟩ : ∃ c body, marker index = c :: body := ⟨_, _, marker_cons index⟩
  unfold replaceAll
  rw [shape] at front ⊢
  rw [List.cons_append] at front ⊢
  rw [resub, if_pos front]
  dsimp only
  obtain ⟨last, skipped⟩ := @resub_skip Char (fun _ word => if (c :: body).isPrefixOf word then
    some ((c :: body).length, replacement) else none) ((c :: body).length - 1) (some c)
    (body ++ rest)
  rw [skipped, List.length_cons, Nat.add_sub_cancel, List.drop_left]
  rw [resub_before (fun _ _ _ => rfl) last none]

/-- Another marker is left as it is. -/
theorem replaceAll_other {index other : Nat} {replacement rest : Text} (differ : index ≠ other)
    (behind : rest.head? ≠ some 'C') :
    replaceAll (marker index) replacement (marker other ++ rest) =
      marker other ++ replaceAll (marker index) replacement rest := by
  have digits := @not_mem_digits '\x00' (by decide) other
  have inner : '\x00' ∉ "CODE".toList ++ Nat.toDigits 10 other :=
    List.not_mem_append (by decide +kernel) digits
  have shape : ∀ rest, marker other ++ rest =
      '\x00' :: (("CODE".toList ++ Nat.toDigits 10 other) ++ '\x00' :: rest) := by
    intro rest
    rw [marker_cons, List.cons_append, List.append_assoc]
    rfl
  have first : ¬marker index <+: '\x00' :: (("CODE".toList ++ Nat.toDigits 10 other) ++
      '\x00' :: rest) := by
    rw [← shape]
    exact fun front => differ (marker_front front)
  have second : ¬marker index <+: '\x00' :: rest := by
    rintro ⟨tail, same⟩
    rw [marker_cons] at same
    obtain ⟨_, later⟩ := List.cons.inj same
    apply behind
    rw [← later]
    rfl
  rw [shape, shape, replaceAll_cons first, replaceAll_append inner, replaceAll_cons second]

theorem replaceAll_slot {index : Nat} {replacement line rest : Text} (slot : Slot line)
    (behind : rest.head? ≠ some 'C') :
    replaceAll (marker index) replacement (line ++ rest) =
      swap index replacement line ++ replaceAll (marker index) replacement rest := by
  rcases slot with solid | ⟨other, rfl⟩
  · rw [swap_solid solid, replaceAll_append solid]
  · by_cases same : index = other
    · subst same
      rw [replaceAll_marker, swap, if_pos rfl]
    · have kept : marker other ≠ marker index := fun equal => same (marker_inj equal).symm
      rw [replaceAll_other same behind, swap, if_neg kept]

theorem replaceAll_lines {index : Nat} {replacement : Text} {lines : List Text}
    (slots : ∀ line ∈ lines, Slot line) :
    replaceAll (marker index) replacement (joinLines lines) =
      joinLines (lines.map (swap index replacement)) := by
  induction lines with
  | nil => rfl
  | cons line rest ih =>
    have here := slots line List.mem_cons_self
    have later := ih fun other among => slots other (List.mem_cons_of_mem line among)
    cases rest with
    | nil =>
      have whole := @replaceAll_slot index replacement line [] here (by decide)
      rwa [List.append_nil, show replaceAll (marker index) replacement [] = [] from rfl,
        List.append_nil] at whole
    | cons next others =>
      have newline : ¬marker index <+: '\n' :: joinLines (next :: others) := by
        rintro ⟨tail, same⟩
        rw [marker_cons] at same
        cases (List.cons.inj same).1
      change replaceAll _ _ (line ++ '\n' :: joinLines (next :: others)) = _
      rw [replaceAll_slot here (by simp), replaceAll_cons newline, later]
      rfl

/-! ## All replacements -/

/-- A line after the replacement of the markers from an index on. -/
def filled (rendered : List Text) (start : Nat) (line : Text) : Text :=
  (rendered.zipIdx start).foldl (fun line block => swap block.2 block.1 line) line

theorem filled_solid {line : Text} (solid : '\x00' ∉ line) (rendered : List Text) (start : Nat) :
    filled rendered start line = line := by
  induction rendered generalizing start with
  | nil => rfl
  | cons text rest ih =>
    unfold filled
    rw [List.zipIdx_cons, List.foldl_cons, swap_solid solid]
    exact ih (start + 1)

theorem filled_marker {rendered : List Text} (solid : ∀ text ∈ rendered, '\x00' ∉ text)
    {start offset : Nat} {text : Text} (found : rendered[offset]? = some text) :
    filled rendered start (marker (start + offset)) = text := by
  induction rendered generalizing start offset with
  | nil => cases found
  | cons first rest ih =>
    unfold filled
    rw [List.zipIdx_cons, List.foldl_cons]
    cases offset with
    | zero =>
      cases found
      rw [Nat.add_zero, swap, if_pos rfl]
      exact filled_solid (solid text List.mem_cons_self) rest (start + 1)
    | succ offset =>
      have kept : marker (start + (offset + 1)) ≠ marker start := by
        intro equal
        have := marker_inj equal
        omega
      rw [swap, if_neg kept, show start + (offset + 1) = (start + 1) + offset by omega]
      exact ih (fun other among => solid other (List.mem_cons_of_mem first among)) found

theorem restore_lines {rendered lines : List Text} (solid : ∀ text ∈ rendered, '\x00' ∉ text)
    (slots : ∀ line ∈ lines, Slot line) :
    restore rendered (joinLines lines) = joinLines (lines.map (filled rendered 0)) := by
  unfold restore
  generalize (0 : Nat) = start
  induction rendered generalizing lines start with
  | nil =>
    change joinLines lines = joinLines (lines.map fun line => line)
    rw [List.map_id']
  | cons text rest ih =>
    rw [List.zipIdx_cons, List.foldl_cons, replaceAll_lines slots]
    have swapped : ∀ line ∈ lines.map (swap start text), Slot line := by
      intro line among
      obtain ⟨origin, listed, rfl⟩ := List.mem_map.mp among
      unfold swap
      split
      · exact .inl (solid text List.mem_cons_self)
      · exact slots origin listed
    rw [ih (fun other among => solid other (List.mem_cons_of_mem text among)) swapped (start + 1),
      List.map_map]
    rfl

end BobbyBotique.Reader
