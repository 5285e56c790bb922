import BobbyBotique.Foundation.Composed

/-!
# Words that a substitution keeps out

A substitution that writes a marker in the place of what it matches brings in no
word that the marker's ends cut off and its inside does not hold.  The
replacement of a word takes the word out.
-/

namespace BobbyBotique

variable {A : Type} {word first second inner : List A} {left right cut : A}

/-- A word without the letter stands before it or behind it. -/
theorem infix_cut (without : cut ∉ word) (inside : word <:+: first ++ cut :: second) :
    word <:+: first ∨ word <:+: second := by
  obtain ⟨front, back, same⟩ := inside
  rw [List.append_assoc] at same
  rcases List.append_eq_append_iff.mp same with ⟨middle, parts, rest⟩ | ⟨middle, parts, rest⟩
  · rcases List.append_eq_append_iff.mp rest with ⟨gap, more, tail⟩ | ⟨gap, more, tail⟩
    · exact .inl ⟨front, gap, by rw [parts, more, List.append_assoc]⟩
    · cases gap with
      | nil =>
        rw [List.append_nil] at more
        exact .inl ⟨front, [], by rw [parts, more, List.append_nil]⟩
      | cons letter gap =>
        obtain ⟨rfl, _⟩ := List.cons.inj tail
        exact absurd (by rw [more]; simp) without
  · cases middle with
    | nil =>
      cases word with
      | nil => exact .inl List.nil_infix
      | cons letter others =>
        obtain ⟨rfl, _⟩ := List.cons.inj rest
        exact absurd List.mem_cons_self without
    | cons letter middle =>
      obtain ⟨_, behind⟩ := List.cons.inj rest
      exact .inr ⟨middle, back, by rw [List.append_assoc]; exact behind.symm⟩

/-- A word stands in none of the three parts around a marker's ends. -/
theorem absent_around (leftOut : left ∉ word) (rightOut : right ∉ word)
    (inside : ¬ word <:+: inner) (before : ¬ word <:+: first) (behind : ¬ word <:+: second) :
    ¬ word <:+: first ++ (left :: (inner ++ right :: second)) := by
  intro stands
  rcases infix_cut leftOut stands with there | there
  · exact before there
  · rcases infix_cut rightOut there with there | there
    · exact inside there
    · exact behind there

/-- Every match is replaced by a marker, between a front and an end of the match. -/
def Marks (marker : List A) (matchAt : Option A → List A → Option (Nat × List A)) : Prop :=
  ∀ before text length replacement, matchAt before text = some (length, replacement) →
    0 < length ∧ ∃ kept tail, replacement = kept ++ (marker ++ tail) ∧ kept <+: text ∧
      tail <:+ text.take length

/-- A substitution by a marker brings in no word that is not in the marker. -/
theorem Marks.absent {matchAt : Option A → List A → Option (Nat × List A)}
    (marks : Marks (left :: (inner ++ [right])) matchAt) (leftOut : left ∉ word)
    (rightOut : right ∉ word) (inside : ¬ word <:+: inner) {text : List A}
    (absent : ¬ word <:+: text) : ¬ word <:+: resub matchAt 0 none text := by
  -- The data is what has been written since the last marker and stands before the text.
  have rule := @resub_rule A matchAt (List A) (fun text done => ¬ word <:+: done ++ text)
    (fun out done => ¬ word <:+: done ++ out) (fun _ holds => holds)
    (by
      intro before letter rest done holds _
      refine ⟨[letter], rest, done ++ [letter], rfl, by simp, by simpa using holds, .inl rfl, ?_⟩
      intro out absent
      simpa using absent)
    (by
      intro before letter rest done length replacement holds found
      obtain ⟨positive, kept, tail, rfl, front, back⟩ := marks _ _ _ _ found
      refine ⟨positive, tail, ?_, ?_⟩
      · obtain ⟨gap, same⟩ := back
        intro stands
        refine holds (stands.trans ⟨done ++ gap, [], ?_⟩)
        rw [List.append_nil, List.append_assoc, ← List.append_assoc gap, same,
          List.take_append_drop]
      · intro out absent
        have before : ¬ word <:+: done ++ kept := by
          intro stands
          obtain ⟨others, same⟩ := front
          refine holds (stands.trans ⟨[], others, ?_⟩)
          rw [List.nil_append, List.append_assoc, same]
        have whole := absent_around leftOut rightOut inside before absent
        simpa using whole)
    text [] (by simpa using absent) none
  simpa using rule

/-- The match of a word itself. -/
def wordAt [DecidableEq A] (old new : List A) (_ : Option A) (text : List A) :
    Option (Nat × List A) :=
  if old.isPrefixOf text then some (old.length, new) else none

/-- `str.replace` of a word that is not empty. -/
def replaceAll [DecidableEq A] (old new text : List A) : List A :=
  resub (wordAt old new) 0 none text

theorem wordAt_marks [DecidableEq A] {old marker : List A} (solid : old ≠ []) :
    Marks marker (wordAt old marker) := by
  intro before text length replacement found
  unfold wordAt at found
  split at found
  · cases found
    exact ⟨List.length_pos_iff.mpr solid, [], [], by simp, List.nil_prefix, List.nil_suffix⟩
  · cases found

/-- A word that is replaced is not left. -/
theorem replaceAll_gone [DecidableEq A] (solid : word ≠ []) (leftOut : left ∉ word)
    (rightOut : right ∉ word) (inside : ¬ word <:+: inner) (text : List A) :
    ¬ word <:+: replaceAll word (left :: (inner ++ [right])) text := by
  -- The word starts at no letter that has been passed.
  have rule := @resub_rule A (wordAt word (left :: (inner ++ [right]))) (List A)
    (fun text done => ∀ place < done.length, ¬ word <+: (done ++ text).drop place)
    (fun out done => ¬ word <:+: done ++ out)
    (by
      rintro done passed ⟨front, back, same⟩
      rw [List.append_nil] at same
      have shorter : front.length < done.length := by
        have := List.length_pos_iff.mpr solid
        rw [← same]
        simp only [List.length_append]
        omega
      refine passed front.length shorter ?_
      rw [List.append_nil, ← same, List.append_assoc, List.drop_left]
      exact List.prefix_append _ _)
    (by
      intro before letter rest done passed found
      refine ⟨[letter], rest, done ++ [letter], rfl, by simp, ?_, .inl rfl, ?_⟩
      · intro place below
        rw [List.append_assoc, List.singleton_append]
        rw [List.length_append, List.length_singleton] at below
        rcases Nat.lt_or_ge place done.length with lower | last
        · exact passed place lower
        · have here : place = done.length := by omega
          rw [here, List.drop_left]
          intro starts
          unfold wordAt at found
          rw [if_pos (List.isPrefixOf_iff_prefix.mpr starts)] at found
          cases found
      · intro out absent
        simpa using absent)
    (by
      intro before letter rest done length replacement passed found
      have positive := (wordAt_marks solid _ _ _ _ found).1
      unfold wordAt at found
      split at found
      · simp only [Option.some.injEq, Prod.mk.injEq] at found
        obtain ⟨rfl, rfl⟩ := found
        refine ⟨positive, [], by simp, ?_⟩
        intro out absent
        have before : ¬ word <:+: done := by
          rintro ⟨front, back, parts⟩
          have shorter : front.length < done.length := by
            rw [← parts]
            simp only [List.length_append]
            omega
          refine passed front.length shorter ?_
          rw [← parts, List.append_assoc, List.append_assoc, List.drop_left]
          exact List.prefix_append _ _
        have whole := absent_around leftOut rightOut inside before absent
        simpa using whole
      · cases found)
    text [] (by simp) none
  simpa [replaceAll] using rule

end BobbyBotique
