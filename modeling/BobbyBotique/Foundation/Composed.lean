import Mathlib.Data.List.Basic

/-!
# Words composed of units

A word is a concatenation of units.  A letter that no unit but its own contains
cuts a composed word into composed words, and so a rewriting that starts only
at such letters keeps the words composed.
-/

namespace BobbyBotique

variable {A : Type}

/-- The word is a concatenation of units. -/
inductive Composed (unit : List A → Prop) : List A → Prop where
  | nil : Composed unit []
  | cons {piece rest : List A} (whole : unit piece) (behind : Composed unit rest) :
      Composed unit (piece ++ rest)

/-- No unit but the letter itself contains the letter. -/
def Alone (unit : List A → Prop) (letter : A) : Prop :=
  ∀ piece, unit piece → letter ∈ piece → piece = [letter]

namespace Composed

variable {unit wider : List A → Prop} {first second : List A} {letter : A}

theorem single {piece : List A} (whole : unit piece) : Composed unit piece := by
  have composed := Composed.cons whole .nil
  rwa [List.append_nil] at composed

theorem append (front : Composed unit first) (back : Composed unit second) :
    Composed unit (first ++ second) := by
  induction front with
  | nil => exact back
  | cons whole _ ih =>
    rw [List.append_assoc]
    exact .cons whole ih

theorem mono (implies : ∀ piece, unit piece → wider piece) (composed : Composed unit first) :
    Composed wider first := by
  induction composed with
  | nil => exact .nil
  | cons whole _ ih => exact .cons (implies _ whole) ih

theorem flatten {words : List (List A)} (all : ∀ word ∈ words, Composed unit word) :
    Composed unit words.flatten := by
  induction words with
  | nil => exact .nil
  | cons word rest ih =>
    rw [List.flatten_cons]
    exact (all word List.mem_cons_self).append
      (ih fun other member => all other (List.mem_cons_of_mem word member))

/-- A letter that stands alone is a unit and cuts a composed word in two. -/
theorem split (alone : Alone unit letter) (composed : Composed unit (first ++ letter :: second)) :
    Composed unit first ∧ unit [letter] ∧ Composed unit second := by
  generalize same : first ++ letter :: second = word at composed
  induction composed generalizing first with
  | nil => exact absurd same (by simp)
  | @cons piece rest whole behind ih =>
    rcases List.append_eq_append_iff.mp same with
      ⟨middle, inside, split⟩ | ⟨middle, outside, split⟩
    · cases middle with
      | nil =>
        rw [List.append_nil] at inside
        exact ⟨inside ▸ .single whole, (@ih [] split).2⟩
      | cons head middle =>
        obtain ⟨rfl, behind'⟩ := List.cons.inj split
        have only := alone piece whole (inside ▸ by simp)
        rw [inside] at only whole
        have lengths := congrArg List.length only
        simp only [List.length_append, List.length_cons, List.length_nil] at lengths
        have empty : first = [] := List.length_eq_zero_iff.mp (by omega)
        have short : middle = [] := List.length_eq_zero_iff.mp (by omega)
        rw [empty, short] at whole
        rw [empty, behind', short]
        exact ⟨.nil, whole, behind⟩
    · obtain ⟨front, back⟩ := @ih middle split.symm
      exact ⟨outside ▸ .cons whole front, back⟩

/-- The rest behind letters that stand alone. -/
theorem behind (alone : ∀ letter ∈ first, Alone unit letter)
    (composed : Composed unit (first ++ second)) : Composed unit second := by
  induction first with
  | nil => exact composed
  | cons letter rest ih =>
    refine ih (fun other member => alone other (List.mem_cons_of_mem _ member)) ?_
    exact (@split A unit [] (rest ++ second) letter (alone letter List.mem_cons_self)
      composed).2.2

/-- The front before letters that stand alone. -/
theorem before (alone : ∀ letter ∈ second, Alone unit letter)
    (composed : Composed unit (first ++ second)) : Composed unit first := by
  cases second with
  | nil => rwa [List.append_nil] at composed
  | cons letter rest => exact (composed.split (alone letter List.mem_cons_self)).1

/-- Letters that are units compose a word. -/
theorem letters (all : ∀ letter ∈ first, unit [letter]) : Composed unit first := by
  induction first with
  | nil => exact .nil
  | cons letter rest ih =>
    exact .cons (all letter List.mem_cons_self)
      (ih fun other member => all other (List.mem_cons_of_mem _ member))

end Composed

/-! ## Substitution -/

/--
`re.sub`: a match at the front of the rest, seen together with the letter before
it, is replaced, and the search goes on behind it.  A pattern matches no empty word.
-/
def resub (matchAt : Option A → List A → Option (Nat × List A)) :
    Nat → Option A → List A → List A
  | _, _, [] => []
  | skip + 1, _, letter :: rest => resub matchAt skip (some letter) rest
  | 0, before, letter :: rest =>
    match matchAt before (letter :: rest) with
    | some (length, replacement) => replacement ++ resub matchAt (length - 1) (some letter) rest
    | none => letter :: resub matchAt 0 (some letter) rest

section Substitution

variable {matchAt : Option A → List A → Option (Nat × List A)}

/-- The letters passed over are those of a match. -/
theorem resub_skip (skip : Nat) (before : Option A) (word : List A) :
    ∃ last, resub matchAt skip before word = resub matchAt 0 last (word.drop skip) := by
  induction skip generalizing before word with
  | zero => exact ⟨before, rfl⟩
  | succ skip ih =>
    cases word with
    | nil => exact ⟨none, rfl⟩
    | cons letter rest => exact ih (some letter) rest

/-- Letters at which no match starts are kept. -/
theorem resub_pass {piece : List A}
    (passes : ∀ letter ∈ piece, ∀ before rest, matchAt before (letter :: rest) = none)
    (before : Option A) (word : List A) :
    ∃ last, resub matchAt 0 before (piece ++ word) = piece ++ resub matchAt 0 last word := by
  induction piece generalizing before with
  | nil => exact ⟨before, rfl⟩
  | cons letter rest ih =>
    obtain ⟨last, same⟩ := ih (fun other member => passes other (List.mem_cons_of_mem _ member))
      (some letter)
    refine ⟨last, ?_⟩
    rw [List.cons_append, resub, passes letter List.mem_cons_self, same]
    rfl

/-- A substitution that writes only letters it has read brings in no others. -/
theorem mem_of_mem_resub
    (reads : ∀ before word length replacement, matchAt before word = some (length, replacement) →
      ∀ letter ∈ replacement, letter ∈ word)
    (skip : Nat) (before : Option A) (word : List A) :
    ∀ letter ∈ resub matchAt skip before word, letter ∈ word := by
  induction word generalizing skip before with
  | nil =>
    intro letter member
    cases skip <;> cases member
  | cons first rest ih =>
    intro letter member
    cases skip with
    | succ skip => exact List.mem_cons_of_mem _ (ih skip _ letter member)
    | zero =>
      rw [resub] at member
      split at member
      · next length replacement found =>
          rcases List.mem_append.mp member with written | later
          · exact reads _ _ _ _ found letter written
          · exact List.mem_cons_of_mem _ (ih _ _ letter later)
      · rcases List.mem_cons.mp member with rfl | later
        · exact List.mem_cons_self
        · exact List.mem_cons_of_mem _ (ih _ _ letter later)

/-- A substitution that writes nothing leaves a part of the word. -/
theorem resub_erases
    (erases : ∀ before word length replacement, matchAt before word = some (length, replacement) →
      replacement = [])
    (skip : Nat) (before : Option A) (word : List A) :
    (resub matchAt skip before word).Sublist word := by
  induction word generalizing skip before with
  | nil => cases skip <;> exact .slnil
  | cons first rest ih =>
    cases skip with
    | succ skip => exact (ih skip _).cons first
    | zero =>
      rw [resub]
      split
      · next length replacement found =>
          rw [erases _ _ _ _ found]
          exact (ih _ _).cons first
      · exact (ih _ _).cons_cons first

/-- What a match of a composed word leaves. -/
structure Rewrites (unit wider : List A → Prop)
    (matchAt : Option A → List A → Option (Nat × List A)) : Prop where
  solid : ∀ piece, unit piece → piece ≠ []
  /-- A match starts at a letter that stands alone. -/
  starts : ∀ before letter rest found, matchAt before (letter :: rest) = some found →
    Alone unit letter
  composes : ∀ before word length replacement,
    matchAt before word = some (length, replacement) → Composed unit word →
      0 < length ∧ Composed wider replacement ∧ Composed unit (word.drop length)

/-- A substitution keeps a composed word composed. -/
theorem Composed.resub {unit wider : List A → Prop} (rewrites : Rewrites unit wider matchAt)
    (implies : ∀ piece, unit piece → wider piece) {word : List A} (composed : Composed unit word)
    (before : Option A) : Composed wider (resub matchAt 0 before word) := by
  generalize size : word.length = bound
  induction bound using Nat.strongRecOn generalizing word before with
  | ind bound ih =>
    subst size
    cases composed with
    | nil => exact .nil
    | @cons piece rest whole behind =>
      have matched : ∀ letter tail found, piece ++ rest = letter :: tail →
          matchAt before (letter :: tail) = some found →
          Composed wider (BobbyBotique.resub matchAt 0 before (letter :: tail)) := by
        rintro letter tail ⟨length, replacement⟩ same found
        have word := Composed.cons whole behind
        rw [same] at word
        obtain ⟨positive, replaced, left⟩ := rewrites.composes _ _ _ _ found word
        rw [BobbyBotique.resub, found]
        obtain ⟨last, skipped⟩ := @resub_skip A matchAt (length - 1) (some letter) tail
        have dropped : (letter :: tail).drop length = tail.drop (length - 1) := by
          cases length with
          | zero => cases positive
          | succ length => rfl
        rw [dropped] at left
        dsimp only
        rw [skipped]
        refine replaced.append (ih _ ?_ left last rfl)
        rw [same, List.length_drop, List.length_cons]
        omega
      have further : ∀ last, Composed wider (BobbyBotique.resub matchAt 0 last rest) := by
        intro last
        have shorter := List.length_pos_iff.mpr (rewrites.solid piece whole)
        exact ih _ (by rw [List.length_append]; omega) behind last rfl
      by_cases lone : ∃ letter, piece = [letter]
      · obtain ⟨letter, rfl⟩ := lone
        cases found : matchAt before (letter :: rest) with
        | some replacement => exact matched letter rest _ rfl found
        | none =>
          rw [List.singleton_append, BobbyBotique.resub, found]
          exact .cons (implies _ whole) (further _)
      · -- No letter of a longer unit starts a match.
        obtain ⟨last, same⟩ := @resub_pass A matchAt piece (fun letter member before rest => by
          cases found : matchAt before (letter :: rest) with
          | none => rfl
          | some replacement =>
            have alone := rewrites.starts before letter rest _ found
            exact absurd ⟨letter, alone piece whole member⟩ lone) before rest
        rw [same]
        exact .cons (implies _ whole) (further _)

/--
The rule of a substitution: what holds of a word, with some data about it, gives
what is wanted of the result.  A match is replaced, and where no match starts a
piece is kept in which none starts.
-/
theorem resub_rule {S : Type} {holds gives : List A → S → Prop}
    (ends : ∀ data, holds [] data → gives [] data)
    (keeps : ∀ before letter rest data, holds (letter :: rest) data →
      matchAt before (letter :: rest) = none →
      ∃ piece behind data', letter :: rest = piece ++ behind ∧ piece ≠ [] ∧ holds behind data' ∧
        (piece = [letter] ∨ ∀ other ∈ piece, ∀ last tail, matchAt last (other :: tail) = none) ∧
        ∀ out, gives out data' → gives (piece ++ out) data)
    (replaces : ∀ before letter rest data length replacement, holds (letter :: rest) data →
      matchAt before (letter :: rest) = some (length, replacement) →
      0 < length ∧ ∃ data', holds ((letter :: rest).drop length) data' ∧
        ∀ out, gives out data' → gives (replacement ++ out) data)
    {word : List A} {data : S} (known : holds word data) (before : Option A) :
    gives (resub matchAt 0 before word) data := by
  generalize size : word.length = bound
  induction bound using Nat.strongRecOn generalizing word data before with
  | ind bound ih =>
    subst size
    cases word with
    | nil => exact ends data known
    | cons letter rest =>
      cases found : matchAt before (letter :: rest) with
      | some result =>
        obtain ⟨length, replacement⟩ := result
        obtain ⟨positive, data', left, wanted⟩ :=
          replaces before letter rest data length replacement known found
        obtain ⟨last, skipped⟩ := @resub_skip A matchAt (length - 1) (some letter) rest
        have dropped : (letter :: rest).drop length = rest.drop (length - 1) := by
          cases length with
          | zero => cases positive
          | succ length => rfl
        rw [dropped] at left
        rw [resub, found]
        dsimp only
        rw [skipped]
        refine wanted _ (ih _ ?_ left last rfl)
        rw [List.length_drop, List.length_cons]
        omega
      | none =>
        obtain ⟨piece, behind, data', same, nonempty, left, quiet, wanted⟩ :=
          keeps before letter rest data known found
        have shorter : behind.length < (letter :: rest).length := by
          have := List.length_pos_iff.mpr nonempty
          rw [same, List.length_append]
          omega
        rcases quiet with single | quiet
        · subst single
          obtain ⟨_, rfl⟩ := List.cons.inj same
          rw [resub, found]
          exact wanted _ (ih _ shorter left _ rfl)
        · obtain ⟨last, passed⟩ := resub_pass quiet before behind
          rw [same, passed]
          exact wanted _ (ih _ shorter left last rfl)

end Substitution

end BobbyBotique
