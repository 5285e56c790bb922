import BobbyBotique.Foundation.Text
import Mathlib.Algebra.GroupWithZero.Nat

/-!
# Nested tags

A word of letters and tags is read from its front with a stack of open tags.
A nested word is cut in two when the tags that are open at the cut are closed
behind the first part and opened again before the second.
-/

namespace BobbyBotique

/-- What a tag does to the stack. -/
inductive Role where
  | opens
  | closes
  | stands
  deriving DecidableEq

inductive Token (A T : Type) where
  | letter (letter : A)
  | tag (tag : T)

/-- The tags of a language; `pairs` says which tag a closing tag closes. -/
structure Tags (T : Type) where
  role : T → Role
  pairs : T → T → Prop

variable {A T : Type}

/--
The word is read from a stack to a stack, whose tops stand first.  Each letter
is read with the tags that are open around it.
-/
inductive Reads (tags : Tags T) :
    List T → List (Token A T) → List (A × List T) → List T → Prop where
  | nil (stack : List T) : Reads tags stack [] [] stack
  | letter {stack after : List T} {word : List (Token A T)} {letters : List (A × List T)}
      (letter : A) (behind : Reads tags stack word letters after) :
      Reads tags stack (.letter letter :: word) ((letter, stack) :: letters) after
  | stands {stack after : List T} {word : List (Token A T)} {letters : List (A × List T)} {tag : T}
      (role : tags.role tag = .stands) (behind : Reads tags stack word letters after) :
      Reads tags stack (.tag tag :: word) letters after
  | opens {stack after : List T} {word : List (Token A T)} {letters : List (A × List T)} {tag : T}
      (role : tags.role tag = .opens) (behind : Reads tags (tag :: stack) word letters after) :
      Reads tags stack (.tag tag :: word) letters after
  | closes {stack after : List T} {word : List (Token A T)} {letters : List (A × List T)}
      {tag top : T} (role : tags.role tag = .closes) (pair : tags.pairs tag top)
      (behind : Reads tags stack word letters after) :
      Reads tags (top :: stack) (.tag tag :: word) letters after

/-- A letter that a blank test holds of. -/
def Token.isBlank (blank : A → Bool) : Token A T → Bool
  | .letter each => blank each
  | .tag _ => false

namespace Reads

variable {tags : Tags T} {stack middle after : List T} {first second word : List (Token A T)}
variable {letters front back : List (A × List T)}

theorem append (before : Reads tags stack first front middle)
    (behind : Reads tags middle second back after) :
    Reads tags stack (first ++ second) (front ++ back) after := by
  induction before with
  | nil => exact behind
  | letter letter _ ih => exact .letter letter (ih behind)
  | stands role _ ih => exact .stands role (ih behind)
  | opens role _ ih => exact .opens role (ih behind)
  | closes role pair _ ih => exact .closes role pair (ih behind)

/-- Letters alone leave the stack as it is. -/
theorem text (stack : List T) (word : List A) :
    Reads tags stack (word.map Token.letter) (word.map fun each => (each, stack)) stack := by
  induction word with
  | nil => exact .nil stack
  | cons each _ ih => exact .letter each ih

theorem split (reads : Reads tags stack (first ++ second) letters after) :
    ∃ middle front back, letters = front ++ back ∧ Reads tags stack first front middle ∧
      Reads tags middle second back after := by
  generalize same : first ++ second = word at reads
  induction reads generalizing first with
  | nil stack =>
    obtain ⟨rfl, rfl⟩ := List.append_eq_nil_iff.mp same
    exact ⟨stack, [], [], rfl, .nil _, .nil _⟩
  | @letter stack after word letters letter behind ih =>
    cases first with
    | nil =>
      cases same
      exact ⟨stack, [], _, rfl, .nil _, .letter letter behind⟩
    | cons head rest =>
      obtain ⟨rfl, tail⟩ := List.cons.inj same
      obtain ⟨middle, front, back, rfl, before, behind⟩ := ih tail
      exact ⟨middle, _, back, rfl, .letter letter before, behind⟩
  | @stands stack after word letters tag role behind ih =>
    cases first with
    | nil =>
      cases same
      exact ⟨stack, [], _, rfl, .nil _, .stands role behind⟩
    | cons head rest =>
      obtain ⟨rfl, tail⟩ := List.cons.inj same
      obtain ⟨middle, front, back, rfl, before, behind⟩ := ih tail
      exact ⟨middle, front, back, rfl, .stands role before, behind⟩
  | @opens stack after word letters tag role behind ih =>
    cases first with
    | nil =>
      cases same
      exact ⟨stack, [], _, rfl, .nil _, .opens role behind⟩
    | cons head rest =>
      obtain ⟨rfl, tail⟩ := List.cons.inj same
      obtain ⟨middle, front, back, rfl, before, behind⟩ := ih tail
      exact ⟨middle, front, back, rfl, .opens role before, behind⟩
  | @closes stack after word letters tag top role pair behind ih =>
    cases first with
    | nil =>
      cases same
      exact ⟨top :: stack, [], _, rfl, .nil _, .closes role pair behind⟩
    | cons head rest =>
      obtain ⟨rfl, tail⟩ := List.cons.inj same
      obtain ⟨middle, front, back, rfl, before, behind⟩ := ih tail
      exact ⟨middle, front, back, rfl, .closes role pair before, behind⟩

/-- The stack holds opening tags only. -/
theorem openers (reads : Reads tags stack word letters after)
    (all : ∀ tag ∈ stack, tags.role tag = .opens) : ∀ tag ∈ after, tags.role tag = .opens := by
  induction reads with
  | nil => exact all
  | letter _ _ ih => exact ih all
  | stands _ _ ih => exact ih all
  | opens role _ ih => exact ih (List.forall_mem_cons.mpr ⟨role, all⟩)
  | closes _ _ _ ih => exact ih (List.forall_mem_cons.mp all).2

/-- The opening tags of a stack, from its bottom, build the stack. -/
theorem reopened (open' : List T) (all : ∀ tag ∈ open', tags.role tag = .opens) :
    Reads tags stack (open'.reverse.map (Token.tag (A := A))) [] (open' ++ stack) := by
  induction open' with
  | nil => exact .nil stack
  | cons tag rest ih =>
    obtain ⟨role, all⟩ := List.forall_mem_cons.mp all
    rw [List.reverse_cons, List.map_append]
    exact append (ih all) (.opens role (.nil _))

/-- The closing tags of a stack, from its top, take it away. -/
theorem closed {close : T → T} (open' : List T)
    (all : ∀ tag ∈ open', tags.role (close tag) = .closes ∧ tags.pairs (close tag) tag) :
    Reads tags (open' ++ stack) (open'.map fun tag => Token.tag (A := A) (close tag)) [] stack := by
  induction open' with
  | nil => exact .nil stack
  | cons tag rest ih =>
    obtain ⟨pair, all⟩ := List.forall_mem_cons.mp all
    exact .closes pair.1 pair.2 (ih all)

section Weights

variable (weight : Token A T → Nat)

/-- The weight of a stack of tags. -/
def stackWeight (stack : List T) : Nat := (stack.map fun tag => weight (.tag tag)).sum

end Weights

/-- Blanks at the front of a word may be dropped. -/
theorem dropBlanks (blank : A → Bool) (reads : Reads tags stack word letters after) :
    ∃ gap back, letters = gap ++ back ∧ (∀ each ∈ gap, blank each.1 = true) ∧
      Reads tags stack (word.dropWhile (Token.isBlank blank)) back after := by
  induction word generalizing letters with
  | nil => exact ⟨[], letters, rfl, by simp, reads⟩
  | cons token rest ih =>
    by_cases skipped : token.isBlank blank = true
    · rw [List.dropWhile_cons_of_pos skipped]
      cases reads with
      | letter letter behind =>
        obtain ⟨gap, back, rfl, dropped, reads⟩ := ih behind
        exact ⟨(letter, stack) :: gap, back, rfl,
          List.forall_mem_cons.mpr ⟨skipped, dropped⟩, reads⟩
      | stands | opens | closes => cases skipped
    · rw [List.dropWhile_cons_of_neg skipped]
      exact ⟨[], letters, rfl, by simp, reads⟩

/--
A nested word is cut in two nested words, whose letters are the letters of the
word with the tags around them, but for the blanks at the cut.
-/
theorem cut {close : T → T} (blank : A → Bool) (reads : Reads tags [] (first ++ second) letters [])
    (pairs : ∀ tag, tags.role tag = .opens →
      tags.role (close tag) = .closes ∧ tags.pairs (close tag) tag) :
    ∃ open' front gap back, letters = front ++ gap ++ back ∧
      (∀ each ∈ gap, blank each.1 = true) ∧ (∀ tag ∈ open', tags.role tag = .opens) ∧
      Reads tags [] first front open' ∧
      Reads tags [] (first ++ open'.map fun tag => Token.tag (close tag)) front [] ∧
      Reads tags open' (second.dropWhile (Token.isBlank blank)) back [] ∧
      Reads tags [] (open'.reverse.map Token.tag ++ second.dropWhile (Token.isBlank blank))
        back [] := by
  obtain ⟨open', front, behind, rfl, before, reads⟩ := reads.split
  obtain ⟨gap, back, rfl, dropped, rest⟩ := reads.dropBlanks blank
  have openers := before.openers (by simp)
  refine ⟨open', front, gap, back, by rw [List.append_assoc], dropped, openers, before, ?_, rest,
    ?_⟩
  · have closers := @closed A T tags [] close open'
      fun tag member => pairs tag (openers tag member)
    rw [List.append_nil] at closers
    have whole := before.append closers
    rwa [List.append_nil] at whole
  · have again := @reopened A T tags [] open' openers
    rw [List.append_nil] at again
    exact again.append rest

end Reads

end BobbyBotique
