import BobbyBotique.Delivery.SplitText
import BobbyBotique.Foundation.Composed

/-!
# Repairing tags

`sanitize_html_tags` rebuilds an HTML text from its front with the stack of the
tags that are open, and drops the pairs of tags that enclose nothing.
-/

namespace BobbyBotique.Delivery

/-- The names in `_TAG_RE`. -/
def tagNames : List (List Char) :=
  ["pre".toList, "code".toList, "b".toList, "i".toList, "a".toList, "u".toList, "s".toList,
    "em".toList, "strong".toList, "blockquote".toList]

/-- The rest of a tag behind its name, with its closing angle bracket. -/
def tagTail : List Char → Option (List Char)
  | [] => none
  | c :: rest =>
    if c = '>' then some ['>']
    else if isSpace c then
      match rest.dropWhile (· ≠ '>') with
      | [] => none
      | close :: _ => some (c :: rest.takeWhile (· ≠ '>') ++ [close])
    else none

/-- The match of `_TAG_RE` at the front of a text. -/
def knownTagAt : List Char → Option Tag
  | '<' :: rest =>
    let closing := rest.head? == some '/'
    let body := if closing then rest.tail else rest
    tagNames.findSome? fun name =>
      if name.isPrefixOf body then
        (tagTail (body.drop name.length)).map fun tail =>
          ⟨closing, name, '<' :: ((if closing then ['/'] else []) ++ name ++ tail)⟩
      else none
  | _ => none

/-- What is written for a tag, and the stack behind it. -/
def repairTag (stack : List Tag) (tag : Tag) : List Tag × List Char :=
  if !tag.closing then (tag :: stack, tag.full)
  else if stack.any fun opening => decide (opening.name = tag.name) then
    -- The tags above the one that is closed are closed before it and opened again behind it.
    let between := stack.takeWhile fun opening => decide (opening.name ≠ tag.name)
    let outer := (stack.dropWhile fun opening => decide (opening.name ≠ tag.name)).tail
    (between ++ outer, closingText between ++ tag.full ++ openingText between)
  else (stack, [])

/-- The walk over the text, `skip` characters behind its front. -/
def repair : Nat → List Tag → List Char → List Char
  | _, stack, [] => closingText stack
  | skip + 1, stack, _ :: rest => repair skip stack rest
  | 0, stack, c :: rest =>
    match knownTagAt (c :: rest) with
    | some tag =>
      let (after, written) := repairTag stack tag
      written ++ repair (tag.full.length - 1) after rest
    | none => c :: repair 0 stack rest

/-- The match of `_EMPTY_TAG_RE` at the front of a text, which is replaced by nothing. -/
def emptyPair (_ : Option Char) (text : List Char) : Option (Nat × List Char) :=
  match knownTagAt text with
  | none => none
  | some tag =>
    let close := "</".toList ++ tag.name ++ ">".toList
    if tag.closing then none
    else if close.isPrefixOf (text.drop tag.full.length) then
      some (tag.full.length + close.length, [])
    else none

/-- The pairs are dropped until none is left; each round but the last shortens the text. -/
def dropPairs : Nat → List Char → List Char
  | 0, text => text
  | fuel + 1, text =>
    let next := resub emptyPair 0 none text
    if next = text then text else dropPairs fuel next

/-- `sanitize_html_tags`. -/
def sanitizeHtmlTags (text : List Char) : List Char :=
  if text = [] then text
  else
    let repaired := repair 0 [] text
    dropPairs repaired.length repaired

end BobbyBotique.Delivery
