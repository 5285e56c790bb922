import BobbyBotique.Delivery.Markdown

/-!
# Markdown to reader HTML

`markdown_to_reader_html` and its patterns.  Fenced blocks are swapped for markers,
the lines are grouped into blocks, the text of a block is escaped and rewritten by
one inline pattern after another, and the markers are replaced at the end.
-/

namespace BobbyBotique.Reader

open Delivery

attribute [local instance] lawful_letters

abbrev Text := List Char

/-- What the interpreter and its library bring: `\d`, `str.lower`, `html.unescape`,
and whether `urlsplit` takes an address.  Unescaping undoes escaping. -/
structure Library where
  python : Interpreter
  isDecimal : Char → Bool
  lower : Text → Text
  unescape : Text → Text
  splits : Text → Bool
  unescape_escape : ∀ text, unescape (escape text) = text
  /-- Below 128 only the ten digits are decimal. -/
  ascii : ∀ c, c.toNat < 128 → isDecimal c = c.isDigit

/-! ## Fenced blocks -/

/-- The text up to the next fence at the start of a line. -/
def closing : Bool → Text → Option Text
  | _, [] => none
  | lineStart, c :: rest =>
    if lineStart && fence.isPrefixOf (c :: rest) then some []
    else (closing (c == '\n') rest).map (c :: ·)

/-- A fenced block: the word behind its opening fence, and its code. -/
structure Fence where
  word : Text
  code : Text

/-- The match of `_FENCE_RE` at the front of the text. -/
def fenceAt (python : Interpreter) (before : Option Char) (text : Text) : Option (Nat × Fence) :=
  if before.all (· == '\n') && fence.isPrefixOf text then
    let word := (text.drop 3).takeWhile (isWord python)
    match (text.drop 3).dropWhile (isWord python) with
    | '\n' :: body =>
      (closing true body).map fun code => (word.length + code.length + 7, ⟨word, code⟩)
    | body => (closing false body).map fun code => (word.length + code.length + 6, ⟨word, code⟩)
  else none

/-- The marker of a block. -/
def marker (index : Nat) : Text := "\x00CODE".toList ++ Nat.toDigits 10 index ++ ['\x00']

/-- `_FENCE_RE.sub(_replace_fence, markdown)`: the text with markers, and the blocks. -/
def protect (python : Interpreter) : Nat → Option Char → Nat → Text → Text × List Fence
  | _, _, _, [] => ([], [])
  | skip + 1, _, index, c :: rest => protect python skip (some c) index rest
  | 0, before, index, c :: rest =>
    match fenceAt python before (c :: rest) with
    | some (length, block) =>
      let behind := protect python (length - 1) (some c) (index + 1) rest
      (marker index ++ behind.1, block :: behind.2)
    | none =>
      let behind := protect python 0 (some c) index rest
      (c :: behind.1, behind.2)

/-- What `_replace_fence` renders. -/
def codeBlock (block : Fence) : Text :=
  let lang := escape (if block.word = [] then "plaintext".toList else block.word)
  let code := escape block.code
  "<div class=\"code-block\" data-lang=\"".toList ++ lang ++ "\">".toList ++
    "<div class=\"code-header\">".toList ++
    "<span class=\"code-lang\">".toList ++ lang ++ "</span>".toList ++
    "<div class=\"code-actions\">".toList ++
    ("<button class=\"code-action\" onclick=\"expandCode(this)\" title=\"Развернуть\">".toList ++
      "⛶".toList ++ "</button>".toList) ++
    ("<button class=\"code-action\" onclick=\"downloadCode(this)\" data-lang=\"".toList ++ lang ++
      "\">".toList ++ "↓".toList ++ "</button>".toList) ++
    ("<button class=\"code-action\" onclick=\"copyCode(this)\">".toList ++ "Копия".toList ++
      "</button>".toList) ++
    "</div>".toList ++ "</div>".toList ++ "<pre>".toList ++
    ("<code class=\"language-".toList ++ lang ++ "\" data-code=\"".toList ++ code ++
      "\">".toList) ++
    code ++ "</code>".toList ++ "</pre>".toList ++ "</div>".toList

/-! ## Inline patterns -/

def anyLetter (_ : Char) : Bool := true

/-- `_INLINE_BOLD_SUB_RE`. -/
def bold : Enclosure := ⟨['*', '*'], anyLetter, fun _ _ => true, fun _ _ => true⟩

/-- `_INLINE_ITALIC_STAR_RE`. -/
def italicStar : Enclosure where
  mark := ['*']
  body := anyLetter
  opens before after := before ≠ some '*' && after ≠ some '*'
  closes last after := last ≠ '*' && after ≠ some '*'

/-- `_INLINE_ITALIC_UNDER_RE`. -/
def italicUnder (python : Interpreter) : Enclosure where
  mark := ['_']
  body := anyLetter
  opens before after := !before.any (isWord python) && after ≠ some '_'
  closes last after := last ≠ '_' && !after.any (isWord python)

/-- `_INLINE_STRIKE_RE`. -/
def strike : Enclosure := ⟨['~', '~'], anyLetter, fun _ _ => true, fun _ _ => true⟩

/-- The first five rewrites of `_inline_markup`. -/
def emphasised (python : Interpreter) (text : Text) : Text :=
  let coded := resub (inlineCode.tagged "code".toList never) 0 none text
  let bolded := resub (bold.tagged "b".toList never) 0 none coded
  let starred := resub (italicStar.tagged "i".toList never) 0 none bolded
  let underlined := resub ((italicUnder python).tagged "i".toList never) 0 none starred
  resub (strike.tagged "s".toList never) 0 none underlined

def schemeLetter (c : Char) : Bool := c.isAlphanum || "+-.".toList.contains c

/-- `urlsplit(url).scheme.lower()`. -/
def urlScheme (url : Text) : Text :=
  let cleaned := (url.dropWhile fun c => decide (c.toNat ≤ 32)).filter
    fun c => !"\t\r\n".toList.contains c
  let name := cleaned.takeWhile (· ≠ ':')
  match cleaned.dropWhile (· ≠ ':'), name with
  | _ :: _, first :: rest =>
    if first.isAlpha && rest.all schemeLetter then (first :: rest).map Char.toLower else []
  | _, _ => []

def safeSchemes : List Text := ["", "https", "http", "mailto"].map String.toList

section

variable (lib : Library)

/-- The address that `_render_link` writes, if it writes one. -/
def address (escapedUrl : Text) : Option Text :=
  let url := strip (lib.unescape escapedUrl)
  if lib.splits url && decide (urlScheme url ∈ safeSchemes) then some url else none

/-- `_render_link`. -/
def renderLink (label escapedUrl : Text) : Text :=
  match address lib escapedUrl with
  | none => label
  | some url =>
    "<a href=\"".toList ++ escape url ++
      "\" target=\"_blank\" rel=\"noopener noreferrer\">".toList ++ label ++ "</a>".toList

end

/-- The match of `_INLINE_LINK_RE` at the front of the text: label and destination. -/
def linkParts : Text → Option (Text × Text)
  | '[' :: rest =>
    match rest.dropWhile (· ≠ ']') with
    | ']' :: '(' :: behind =>
      let label := rest.takeWhile (· ≠ ']')
      let url := behind.takeWhile (· ≠ ')')
      if label ≠ [] ∧ url ≠ [] ∧ behind.dropWhile (· ≠ ')') ≠ [] then some (label, url)
      else none
    | _ => none
  | _ => none

section

variable (lib : Library)

def link (_ : Option Char) (text : Text) : Option (Nat × Text) :=
  (linkParts text).map fun parts =>
    (parts.1.length + parts.2.length + 4, renderLink lib parts.1 parts.2)

/-- `_inline_markup`. -/
def inlineMarkup (text : Text) : Text := resub (link lib) 0 none (emphasised lib.python text)

/-! ## Headings -/

def unreserved (c : Char) : Bool := c.isAlphanum || "_.-~".toList.contains c

def hexDigit (digit : Nat) : Char := "0123456789ABCDEF".toList.getD digit '0'

/-- `urllib.parse.quote` with no letter safe. -/
def quote (text : Text) : Text :=
  text.flatMap fun c =>
    if unreserved c then [c]
    else (String.utf8EncodeChar c).flatMap fun byte =>
      ['%', hexDigit (byte.toNat / 16), hexDigit (byte.toNat % 16)]

/-- `_SLUG_NORM_RE.sub`. -/
def hyphens (_ : Option Char) (text : Text) : Option (Nat × Text) :=
  let run := text.takeWhile fun c => isSpace c || c == '_'
  if run = [] then none else some (run.length, ['-'])

/-- `text.strip("-")`. -/
def stripHyphens (text : Text) : Text :=
  ((text.dropWhile (· = '-')).reverse.dropWhile (· = '-')).reverse

/-- `_slug`. -/
def slug (text : Text) : Text :=
  let kept := (lib.lower (lib.unescape text)).filter fun c =>
    isWord lib.python c || isSpace c || c == '-'
  quote (stripHyphens (resub hyphens 0 none kept))

end

/-- The level and the text of `_BLOCK_HEADING_RE` on a stripped line. -/
def heading? (line : Text) : Option (Nat × Text) :=
  let level := (line.takeWhile (· = '#')).length
  let rest := line.dropWhile (· = '#')
  if 1 ≤ level ∧ level ≤ 6 ∧ rest.head?.any isSpace = true then some (level, strip rest) else none

/-- A heading without the marks of `_HEADING_MD_STRIP_RE`. -/
def cleanHeading (text : Text) : Text :=
  strip (text.filter fun c => !"*_`".toList.contains c)

/-! ## Blocks -/

def isQuote (stripped : Text) : Bool :=
  "> ".toList.isPrefixOf stripped || stripped == ['>']

def quoteContent (stripped : Text) : Text :=
  if "> ".toList.isPrefixOf stripped then stripped.drop 2 else []

/-- `_BLOCK_UL_RE`. -/
def isBullet : Text → Bool
  | mark :: blank :: _ => "-*+".toList.contains mark && isSpace blank
  | _ => false

def bulletContent (stripped : Text) : Text := (stripped.drop 1).dropWhile isSpace

section

variable (lib : Library)

/-- `_BLOCK_OL_RE`. -/
def isNumbered (stripped : Text) : Bool :=
  (stripped.takeWhile lib.isDecimal != []) &&
    match stripped.dropWhile lib.isDecimal with
    | '.' :: blank :: _ => isSpace blank
    | _ => false

def numberedContent (stripped : Text) : Text :=
  ((stripped.dropWhile lib.isDecimal).drop 1).dropWhile isSpace

/-- What a block of lines becomes. -/
inductive Block where
  | heading (level : Nat) (text : Text)
  | rule
  | quote (lines : List Text)
  | bullets (items : List Text)
  | numbered (items : List Text)
  | code (stripped : Text)
  | paragraph (text : Text)

/-- `_flush_para`. -/
def flushPara (buffer : List Text) : List Block :=
  let joined := [' '].intercalate buffer
  if joined = [] then [] else [.paragraph joined]

/-- The `while` loop over the lines, with the lines that wait in `para_buf`; the inner
loops take their lines at once, and the outer one skips them. -/
def blocks : Nat → List Text → List Text → List Block
  | _, buffer, [] => flushPara buffer
  | skip + 1, buffer, _ :: rest => blocks skip buffer rest
  | 0, buffer, raw :: rest =>
    let stripped := strip raw
    let group (holds : Text → Bool) := ((raw :: rest).map strip).takeWhile holds
    match heading? stripped with
    | some (level, text) => flushPara buffer ++ .heading level text :: blocks 0 [] rest
    | none =>
      if isRule stripped && stripped != [] then
        flushPara buffer ++ .rule :: blocks 0 [] rest
      else if isQuote stripped then
        flushPara buffer ++ .quote ((group isQuote).map quoteContent) ::
          blocks ((group isQuote).length - 1) [] rest
      else if isBullet stripped then
        flushPara buffer ++ .bullets ((group isBullet).map bulletContent) ::
          blocks ((group isBullet).length - 1) [] rest
      else if isNumbered lib stripped then
        flushPara buffer ++ .numbered ((group (isNumbered lib)).map (numberedContent lib)) ::
          blocks ((group (isNumbered lib)).length - 1) [] rest
      else if stripped = [] then flushPara buffer ++ blocks 0 [] rest
      else if stripped.tails.any "\x00CODE".toList.isPrefixOf then
        flushPara buffer ++ .code stripped :: blocks 0 [] rest
      else blocks 0 (buffer ++ [stripped]) rest

def inline (text : Text) : Text := inlineMarkup lib (escape text)

def listItem (text : Text) : Text := "<li>".toList ++ inline lib text ++ "</li>".toList

/-- The output line of a block. -/
def Block.render : Block → Text
  | .heading level text =>
    let tag := 'h' :: Nat.toDigits 10 (min level 3)
    '<' :: tag ++ " id=\"".toList ++ escape (slug lib (cleanHeading text)) ++ "\">".toList ++
      inline lib text ++ "</".toList ++ tag ++ ">".toList
  | .rule => "<hr>".toList
  | .quote lines =>
    "<blockquote>".toList ++ "<br>".toList.intercalate (lines.map (inline lib)) ++
      "</blockquote>".toList
  | .bullets items => "<ul>".toList ++ (items.map (listItem lib)).flatten ++ "</ul>".toList
  | .numbered items => "<ol>".toList ++ (items.map (listItem lib)).flatten ++ "</ol>".toList
  | .code stripped => stripped
  | .paragraph text => "<p>".toList ++ inline lib text ++ "</p>".toList

/-! ## The page -/

/-- `text.replace`. -/
def replaceAll (needle replacement : Text) (text : Text) : Text :=
  resub (fun _ word => if needle.isPrefixOf word then some (needle.length, replacement) else none)
    0 none text

/-- The markers are replaced one after another. -/
def restore (rendered : List Text) (text : Text) : Text :=
  rendered.zipIdx.foldl (fun text block => replaceAll (marker block.2) block.1 text) text

def pageBlocks (markdown : Text) : List Block :=
  blocks lib 0 [] (splitLines (protect lib.python 0 none 0 markdown).1)

/-- `markdown_to_reader_html`. -/
def readerHtml (markdown : Text) : Text :=
  restore ((protect lib.python 0 none 0 markdown).2.map codeBlock)
    (joinLines ((pageBlocks lib markdown).map (Block.render lib)))

end

end BobbyBotique.Reader
