import BobbyBotique.Foundation.HtmlText
import BobbyBotique.Observability.Patterns
import BobbyBotique.Reader.Page

/-!
# Bionic reading

`apply_bionic_reading`: the page is cut at its tags, a counter follows the elements that
are passed over, and the front of each word of the other parts is put into a `b` element.
What the code writes is kept in pieces, so that what it inserted can be told apart.
-/

namespace BobbyBotique.Reader

open Delivery
open Observability (startsFolded)

/-- What is written: text of the page, or a `b` element put around some of it. -/
inductive Piece where
  | kept (text : Text)
  | bold (text : Text)

def Piece.written : Piece → Text
  | .kept text => text
  | .bold text => "<b>".toList ++ text ++ "</b>".toList

/-- A piece without the element that was put around it. -/
def Piece.erased : Piece → Text
  | .kept text => text
  | .bold text => text

def written (pieces : List Piece) : Text := pieces.flatMap Piece.written

def erased (pieces : List Piece) : Text := pieces.flatMap Piece.erased

/-! ## Words -/

/-- The letters of a word that are put into bold. -/
def boldLength (length : Nat) : Nat :=
  if length ≤ 3 then 1 else if length ≤ 6 then 2 else if length ≤ 9 then 3 else 4

/-- `_bold_word`. -/
def boldWord (word : Text) : List Piece :=
  [.bold (escape (word.take (boldLength word.length))),
    .kept (escape (word.drop (boldLength word.length)))]

section

variable (python : Interpreter)

/-- `_bionic_text`, with the letters of the word that is being read. -/
def bionicText : Text → Text → List Piece
  | [], [] => []
  | word, [] => boldWord word
  | word, c :: rest =>
    if isWord python c then bionicText (word ++ [c]) rest
    else (if word = [] then [] else boldWord word) ++ .kept [c] :: bionicText [] rest

/-! ## Tags -/

/-- `<[^>]+>` matches behind this `<`. -/
def closesBehind (rest : Text) : Bool := decide (rest.head? ≠ some '>') && rest.contains '>'

/-- `_SPLIT_TAGS_RE.split`: texts and tags by turns, with the part that is being read. -/
def splitTags : Bool → Text → Text → List Text
  | _, part, [] => [part]
  | false, part, c :: rest =>
    if c = '<' ∧ closesBehind rest then part :: splitTags true ['<'] rest
    else splitTags false (part ++ [c]) rest
  | true, part, c :: rest =>
    if c = '>' then (part ++ ['>']) :: splitTags false [] rest
    else splitTags true (part ++ [c]) rest

def skipped : List String := ["code", "pre", "b", "strong", "a"]

/-- `(code|pre|b|strong|a)\b` whatever the case. -/
def startsSkipped (text : Text) : Bool :=
  skipped.any fun name =>
    startsFolded name text && !((text.drop name.toList.length).head?.any (isWord python))

/-- The counter behind a part that starts with `<`. -/
def depthBehind (depth : Nat) (part : Text) : Nat :=
  if startsSkipped python (part.drop 1) then depth + 1
  else if part.take 2 = "</".toList ∧ startsSkipped python (part.drop 2) then depth - 1
  else depth

/-- The parts, each with whether its words are changed. -/
def markParts : Nat → List Text → List (Bool × Text)
  | _, [] => []
  | depth, part :: rest =>
    if part.head? = some '<' then (false, part) :: markParts (depthBehind python depth part) rest
    else (depth == 0, part) :: markParts depth rest

def marked (html : Text) : List (Bool × Text) := markParts python 0 (splitTags false [] html)

def partPieces : Bool × Text → List Piece
  | (true, part) => bionicText python [] part
  | (false, part) => [.kept part]

def bionicPieces (html : Text) : List Piece := (marked python html).flatMap (partPieces python)

/-- `apply_bionic_reading`. -/
def applyBionicReading (html : Text) : Text := written (bionicPieces python html)

end

/-! ## What emphasis is to keep -/

/-- A character reference: a name or a number between `&` and `;`. -/
def IsReference (text : Text) : Prop :=
  ∃ name, text = '&' :: name ++ [';'] ∧
    ∃ letters, (name = letters ∨ name = '#' :: letters) ∧ letters ≠ [] ∧
      ∀ c ∈ letters, c.isAlphanum = true

/-- The places of an HTML text, with the elements that are passed over. -/
def placesOf (html : Text) : List (Option (List Text)) :=
  HtmlText.places (skipped.map String.toList) html

/-- The pieces differ from the page by emphasis alone. -/
structure OnlyEmphasis (html : Text) (pieces : List Piece) : Prop where
  restored : erased pieces = html
  /-- An inserted element holds some letters of a text outside the elements passed over. -/
  inside : ∀ before head behind, pieces = before ++ .bold head :: behind → head ≠ [] ∧
    ∀ index < head.length, (placesOf html)[(erased before).length + index]? = some (some [])
  /-- No reference has a tag put into it. -/
  whole : ∀ before head behind, pieces = before ++ .bold head :: behind →
    ∀ first reference second, html = first ++ reference ++ second → IsReference reference →
      ∀ place ∈ [(erased before).length, (erased before).length + head.length],
        ¬(first.length < place ∧ place < first.length + reference.length)

/-- What the parts that are changed may hold. -/
structure Fair (python : Interpreter) (html : Text) : Prop where
  /-- No reference. -/
  plain : ∀ part, (true, part) ∈ marked python html → ∀ reference, reference <:+: part →
    ¬IsReference reference
  /-- Words only where HTML too has text outside the elements passed over. -/
  outside : ∀ before part behind, marked python html = before ++ (true, part) :: behind →
    ∀ index c, part[index]? = some c → isWord python c = true →
      (placesOf html)[(before.flatMap Prod.snd).length + index]? = some (some [])

end BobbyBotique.Reader
