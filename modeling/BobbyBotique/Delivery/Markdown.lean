import BobbyBotique.Foundation.Composed
import BobbyBotique.Foundation.Text

/-!
# Markdown to Telegram HTML

`markdown_to_html` and its patterns.  Blocks in fences are escaped as they are;
other text is cleaned of backslashes, escaped, formatted line by line and then
rewritten by one pattern after another.
-/

namespace BobbyBotique.Delivery

/-- The character classes of the interpreter and the attributes of its `object`. -/
structure Interpreter where
  isAlnum : Char → Bool
  /-- Below 128 only letters and digits are alphanumeric. -/
  ascii : ∀ c, c.toNat < 128 → isAlnum c = c.isAlphanum
  objectNames : List (List Char)

variable (python : Interpreter)

/-- `\w`. -/
def isWord (c : Char) : Bool := python.isAlnum c || c == '_'

/-! ## Escaping -/

/-- What `html.escape` writes for a character, if it does not keep it. -/
def entity? : Char → Option (List Char)
  | '&' => some "&amp;".toList
  | '<' => some "&lt;".toList
  | '>' => some "&gt;".toList
  | '"' => some "&quot;".toList
  | '\'' => some "&#x27;".toList
  | _ => none

def escapeChar (c : Char) : List Char := (entity? c).getD [c]

/-- `html.escape`. -/
def escape (text : List Char) : List Char := text.flatMap escapeChar

/-- What `_ESCAPE_CLEANUP_RE` takes a backslash from. -/
def cleaned : List Char := ".-()!=[]{}|#+".toList

/-- `_ESCAPE_CLEANUP_RE.sub`. -/
def escapeCleanup : Option Char → List Char → Option (Nat × List Char)
  | _, '\\' :: c :: _ => if cleaned.contains c then some (2, [c]) else none
  | _, _ => none

/-! ## Fenced blocks -/

def fence : List Char := "```".toList

/-- The length up to the end of the next fence. -/
def fenceEnd : List Char → Option Nat
  | [] => none
  | c :: rest => if fence.isPrefixOf (c :: rest) then some 3 else (fenceEnd rest).map (· + 1)

/-- The length of the block at the front of the text. -/
def blockLength (text : List Char) : Option Nat :=
  if fence.isPrefixOf text then (fenceEnd (text.drop 3)).map (· + 3) else none

/-- A character in front of the first segment. -/
def consHead (c : Char) : List (List Char) → List (List Char)
  | [] => [[c]]
  | first :: rest => (c :: first) :: rest

/-- `_CODE_BLOCK_RE.split`, with what is left of the block the text starts in. -/
def segments : Nat → List Char → List (List Char)
  | _, [] => [[]]
  | left + 1, c :: rest =>
    if left = 0 then consHead c ([] :: segments 0 rest) else consHead c (segments left rest)
  | 0, c :: rest =>
    match blockLength (c :: rest) with
    | some length => [] :: consHead c (segments (length - 1) rest)
    | none => consHead c (segments 0 rest)

/-- The language named on the first line of a block. -/
def language (firstLine : List Char) : Option (List Char) :=
  let named := strip firstLine
  if named ≠ [] ∧ named.length < 20 ∧
      (named.all fun c => python.isAlnum c || "+-#.".toList.contains c) = true then
    some named
  else none

/-- The markup of a fenced block; an empty block leaves nothing. -/
def codeBlock (segment : List Char) : List Char :=
  let inner := (segment.drop 3).take (segment.length - 6)
  let named := if inner.contains '\n' then language python (inner.takeWhile (· ≠ '\n')) else none
  let content := if named.isSome then (inner.dropWhile (· ≠ '\n')).drop 1 else inner
  let escaped := escape (strip content)
  if escaped = [] then []
  else
    match named with
    | some name =>
      "<pre>".toList ++ ("<code class=\"language-".toList ++ name ++ "\">".toList) ++ escaped ++
        "</code>".toList ++ "</pre>".toList
    | none => "<pre>".toList ++ escaped ++ "</pre>".toList

/-! ## Lines -/

/-- `text.split("\n")`. -/
def splitLines : List Char → List (List Char)
  | [] => [[]]
  | c :: rest => if c = '\n' then [] :: splitLines rest else consHead c (splitLines rest)

/-- `"\n".join`. -/
def joinLines : List (List Char) → List Char
  | [] => []
  | [line] => line
  | line :: rest => line ++ '\n' :: joinLines rest

/-- The text of a heading: `_HEADING_RE` with its second group stripped. -/
def heading? (line : List Char) : Option (List Char) :=
  let hashes := line.takeWhile (· = '#')
  let rest := line.dropWhile (· = '#')
  let blanks := rest.takeWhile isSpace
  if 1 ≤ hashes.length ∧ hashes.length ≤ 3 ∧ blanks ≠ [] ∧
      (rest.dropWhile isSpace ≠ [] ∨ 2 ≤ blanks.length) then
    some (strip rest)
  else none

/-- `_HR_RE`. -/
def isRule (line : List Char) : Bool :=
  decide (3 ≤ (line.takeWhile "-*_".toList.contains).length) &&
    (line.dropWhile "-*_".toList.contains).all isSpace

def ruleLine : List Char := List.replicate 16 '━'

/-- `_flush_blockquote`. -/
def flush (lines buffer : List (List Char)) : List (List Char) :=
  if buffer = [] then lines
  else lines ++ ["<blockquote>".toList ++ joinLines buffer ++ "</blockquote>".toList]

/-- The content of a quoted line. -/
def quoted? (stripped : List Char) : Option (List Char) :=
  if "&gt; ".toList.isPrefixOf stripped then some (stripped.drop 5)
  else if stripped = "&gt;".toList then some []
  else none

/-- One line, with the lines processed so far and the quoted lines that wait. -/
def blockLine (state : List (List Char) × List (List Char)) (line : List Char) :
    List (List Char) × List (List Char) :=
  let stripped := lstrip line
  match quoted? stripped with
  | some content => (state.1, state.2 ++ [content])
  | none =>
    let lines := flush state.1 state.2
    match heading? stripped with
    | some text => (lines ++ ["\n".toList ++ "<b>".toList ++ text ++ "</b>".toList], [])
    | none => if isRule stripped then (lines ++ [ruleLine], []) else (lines ++ [line], [])

def formatLines (text : List Char) : List Char :=
  let state := (splitLines text).foldl blockLine ([], [])
  joinLines (flush state.1 state.2)

/-! ## Inline patterns -/

/-- The shortest group of `body` letters, at least one, behind which the pattern ends. -/
def shortest (body : Char → Bool) (ends : Char → List Char → Bool) :
    List Char → Option (List Char)
  | [] => none
  | c :: rest =>
    if !body c then none
    else if ends c rest then some [c]
    else (shortest body ends rest).map (c :: ·)

/--
A pattern that encloses a group by a mark on both sides, with what it asks of
the letter before the mark and after it, on either side.
-/
structure Enclosure where
  mark : List Char
  body : Char → Bool
  opens : Option Char → Option Char → Bool
  closes : Char → Option Char → Bool

/-- The group of an enclosure at the front of the text. -/
def Enclosure.group (pattern : Enclosure) (before : Option Char) (text : List Char) :
    Option (List Char) :=
  if pattern.mark.isPrefixOf text &&
      pattern.opens before (text.drop pattern.mark.length).head? then
    shortest pattern.body
      (fun last rest => pattern.mark.isPrefixOf rest &&
        pattern.closes last (rest.drop pattern.mark.length).head?)
      (text.drop pattern.mark.length)
  else none

/-- The substitution that puts the group between tags, unless the match is to be kept. -/
def Enclosure.tagged (pattern : Enclosure) (tag : List Char) (keeps : List Char → Bool)
    (before : Option Char) (text : List Char) : Option (Nat × List Char) :=
  (pattern.group before text).map fun group =>
    let found := pattern.mark ++ group ++ pattern.mark
    (found.length,
      if keeps found then found
      else ('<' :: (tag ++ ['>'])) ++ group ++ ('<' :: '/' :: (tag ++ ['>'])))

def notNewline (c : Char) : Bool := c ≠ '\n'

/-- `_INLINE_CODE_RE`. -/
def inlineCode : Enclosure := ⟨['`'], fun c => c ≠ '`', fun _ _ => true, fun _ _ => true⟩

/-- `_BOLD_RE`. -/
def bold : Enclosure := ⟨['*', '*'], notNewline, fun _ _ => true, fun _ _ => true⟩

/-- `_ITALIC_UNDER_RE`. -/
def italicUnder : Enclosure where
  mark := ['_', '_']
  body := notNewline
  opens before _ := !before.any (isWord python)
  closes _ after := !after.any (isWord python)

/-- `_ITALIC_STAR_RE`. -/
def italicStar : Enclosure where
  mark := ['*']
  body := notNewline
  opens before after := before ≠ some '*' && after ≠ some '*'
  closes last after := last ≠ '*' && after ≠ some '*'

/-- `_ITALIC_SINGLE_UNDER_RE`. -/
def italicSingleUnder : Enclosure where
  mark := ['_']
  body := notNewline
  opens before after := !before.any (isWord python) && after ≠ some '_'
  closes last after := last ≠ '_' && !after.any (isWord python)

/-- `_STRIKETHROUGH_RE`. -/
def strikethrough : Enclosure := ⟨['~', '~'], notNewline, fun _ _ => true, fun _ _ => true⟩

/-- `_PYTHON_DUNDER_NAMES`. -/
def dunderNames : List (List Char) :=
  python.objectNames ++
    ["__all__", "__annotations__", "__builtins__", "__dict__", "__file__", "__loader__",
      "__module__", "__name__", "__package__", "__path__", "__spec__"].map String.toList

/-- The match of `_LINK_RE` at the front of the text, as an anchor. -/
def link : Option Char → List Char → Option (Nat × List Char)
  | _, '[' :: rest =>
    let text := rest.takeWhile (· ≠ ']')
    match rest.dropWhile (· ≠ ']') with
    | ']' :: '(' :: behind =>
      let url := behind.takeWhile (· ≠ ')')
      if text ≠ [] ∧ url ≠ [] ∧ behind.dropWhile (· ≠ ')') ≠ [] then
        some (text.length + url.length + 4,
          ("<a href=\"".toList ++ url ++ "\">".toList) ++ text ++ "</a>".toList)
      else none
    | _ => none
  | _, _ => none

def never (_ : List Char) : Bool := false

/-- The inline patterns in their order. -/
def formatInline (text : List Char) : List Char :=
  let coded := resub (inlineCode.tagged "code".toList never) 0 none text
  let bolded := resub (bold.tagged "b".toList never) 0 none coded
  let dundered := resub ((italicUnder python).tagged "i".toList
    (dunderNames python).contains) 0 none bolded
  let starred := resub (italicStar.tagged "i".toList never) 0 none dundered
  let emphasised := resub ((italicSingleUnder python).tagged "i".toList never) 0 none starred
  let struck := resub (strikethrough.tagged "s".toList never) 0 none emphasised
  resub link 0 none struck

/-- One segment of the text. -/
def formatSegment (segment : List Char) : List Char :=
  if fence.isPrefixOf segment && fence.reverse.isPrefixOf segment.reverse &&
      decide (segment.length ≥ 6) then
    codeBlock python segment
  else formatInline python (formatLines (escape (resub escapeCleanup 0 none segment)))

/-- `markdown_to_html`. -/
def markdownToHtml (text : List Char) : List Char :=
  if text = [] then [] else (segments 0 text).flatMap (formatSegment python)

end BobbyBotique.Delivery
