import BobbyBotique.Foundation.Text

/-!
# Where the letters of an HTML text stand

A reader of HTML letter by letter: each letter stands in markup, or in text with some
elements open.  An attribute value in quotes may hold the letter that ends a tag.
-/

namespace BobbyBotique.HtmlText

/-- What is being read. -/
inductive Mode where
  | text
  | tag (quote : Option Char) (valued : Bool) (letters : List Char)
  | comment (dashes : Nat)
  | declaration

structure Reading where
  mode : Mode
  opened : List (List Char)

/-- What a `<` with this behind it begins. -/
def enter : List Char → Option Mode
  | '!' :: '-' :: '-' :: _ => some (.comment 0)
  | '!' :: _ => some .declaration
  | '?' :: _ => some .declaration
  | '/' :: c :: _ => some (if c.isAlpha then .tag none false [] else .declaration)
  | c :: _ => if c.isAlpha then some (.tag none false []) else none
  | [] => none

def isBlank (c : Char) : Bool := " \t\n\x0c\r".toList.contains c

/-- The name at the front of a tag. -/
def nameOf (letters : List Char) : List Char :=
  (letters.takeWhile fun c => !(isBlank c || c == '/')).map Char.toLower

section

-- The elements that are followed.
variable (elements : List (List Char))

/-- The elements that are open behind a tag. -/
def leaveTag (opened : List (List Char)) : List Char → List (List Char)
  | '/' :: letters => opened.erase (nameOf letters)
  | letters =>
    if elements.contains (nameOf letters) then nameOf letters :: opened else opened

namespace Reading

/-- A letter is read, with what stands behind it. -/
def next (reading : Reading) (c : Char) (behind : List Char) : Reading :=
  match reading.mode with
  | .text => if c = '<' then { reading with mode := (enter behind).getD .text } else reading
  | .tag (some quote) _ letters =>
    if c = quote then { reading with mode := .tag none false letters } else reading
  | .tag none valued letters =>
    if c = '>' then ⟨.text, leaveTag elements reading.opened letters⟩
    else if valued ∧ (c = '"' ∨ c = '\'') then
      { reading with mode := .tag (some c) false letters }
    else { reading with mode := .tag none (c == '=' || valued && isBlank c) (letters ++ [c]) }
  | .comment dashes =>
    if c = '-' then { reading with mode := .comment (dashes + 1) }
    else if c = '>' ∧ 2 ≤ dashes then { reading with mode := .text }
    else { reading with mode := .comment 0 }
  | .declaration => if c = '>' then { reading with mode := .text } else reading

/-- Where a letter stands that begins no markup. -/
def stands (reading : Reading) : Option (List (List Char)) :=
  match reading.mode with
  | .text => some reading.opened
  | _ => none

/-- Where a letter stands: the elements that are open, or none in markup. -/
def place (reading : Reading) (c : Char) (behind : List Char) : Option (List (List Char)) :=
  if c = '<' ∧ (enter behind).isSome then none else reading.stands

/-- The reading behind the front of a text. -/
def after (reading : Reading) : List Char → List Char → Reading
  | [], _ => reading
  | c :: front, behind => (reading.next elements c (front ++ behind)).after front behind

/-- The places of all letters. -/
def places (reading : Reading) : List Char → List (Option (List (List Char)))
  | [] => []
  | c :: behind => reading.place c behind :: (reading.next elements c behind).places behind

end Reading

/-- The places of the letters of an HTML text. -/
def places (html : List Char) : List (Option (List (List Char))) :=
  (Reading.mk .text []).places elements html

end

/-! ## Runs of letters -/

namespace Reading

variable {elements : List (List Char)} {reading : Reading} {c : Char} {front behind : List Char}

theorem place_of_ne (plain : c ≠ '<') : reading.place c behind = reading.stands :=
  if_neg fun both => plain both.1

/-- Only at angle brackets does a reading pass between text and markup. -/
theorem stands_next (lt : c ≠ '<') (gt : c ≠ '>') :
    (reading.next elements c behind).stands = reading.stands := by
  rcases reading with ⟨mode, opened⟩
  cases mode with
  | text => rw [next, if_neg lt]
  | tag quote valued letters =>
    cases quote with
    | some quote =>
      simp only [next]
      split <;> rfl
    | none =>
      simp only [next, if_neg gt]
      split <;> rfl
  | comment dashes =>
    simp only [next]
    split
    · rfl
    · rw [if_neg fun both => gt both.1]
      rfl
  | declaration => rw [next, if_neg gt]

theorem after_append (first second : List Char) :
    reading.after elements (first ++ second) behind =
      (reading.after elements first (second ++ behind)).after elements second behind := by
  induction first generalizing reading with
  | nil => rfl
  | cons c first ih => simp only [List.cons_append, after, List.append_assoc, ih]

theorem getElem?_places (reading : Reading) (front : List Char) (c : Char)
    (behind : List Char) :
    (reading.places elements (front ++ c :: behind))[front.length]? =
      some ((reading.after elements front (c :: behind)).place c behind) := by
  induction front generalizing reading with
  | nil => rfl
  | cons d front ih => exact ih (reading.next elements d (front ++ c :: behind))

/-- The letters of a run without angle brackets stand where the run begins. -/
theorem places_run {run : List Char} (plain : ∀ c ∈ run, c ≠ '<' ∧ c ≠ '>') {index : Nat}
    (inside : index < run.length) :
    (reading.places elements (front ++ run ++ behind))[front.length + index]? =
      some (reading.after elements front (run ++ behind)).stands := by
  induction run generalizing front index with
  | nil => exact absurd inside (Nat.not_lt_zero _)
  | cons c run ih =>
    have apart := plain c List.mem_cons_self
    cases index with
    | zero =>
      rw [Nat.add_zero, List.append_assoc, List.cons_append, getElem?_places, place_of_ne apart.1]
    | succ index =>
      have later : (reading.places elements (front ++ [c] ++ run ++ behind))[
          (front ++ [c]).length + index]? = _ :=
        ih (fun d member => plain d (List.mem_cons_of_mem _ member))
          (Nat.lt_of_succ_lt_succ inside)
      rw [after_append] at later
      simp only [List.append_assoc, List.cons_append, List.nil_append, List.length_append,
        List.length_cons, List.length_nil, after, stands_next apart.1 apart.2] at later ⊢
      rw [← later]
      congr 1
      omega

end Reading

end BobbyBotique.HtmlText
