import BobbyBotique.Foundation.Marking
import BobbyBotique.Foundation.Text
import Mathlib.Data.Option.Basic

/-!
# Credentials in a text

The five patterns of the redaction.  Each replaces what it matches by a marker and
keeps what stands before the credential.
-/

namespace BobbyBotique.Observability

abbrev Text := List Char

/-- What the language knows of letters. -/
structure Language where
  /-- `\d`. -/
  isDigit : Char → Bool
  digits : ∀ c, c.toNat < 128 → isDigit c = c.isDigit
  /-- `str.casefold` of one letter. -/
  casefold : Char → Text
  ascii : ∀ c, c.toNat < 128 → casefold c = [c.toLower]

/-- `REDACTED`. -/
def redacted : Text := "[redacted]".toList

/-- The ASCII letter that a letter matches when case is ignored. -/
def folded (c : Char) : Char :=
  if c = 'İ' ∨ c = 'ı' then 'i'
  else if c = 'ſ' then 's'
  else if c.toNat = 0x212A then 'k'
  else c.toLower

/-- The text starts with the letters, whatever their case. -/
def startsFolded (letters : String) (text : Text) : Bool :=
  (text.take letters.toList.length).map folded == letters.toList

/-- `[a-z]` when case is ignored. -/
def isLatin (c : Char) : Bool := (folded c).isLower

/-- The length of the credential that a pattern matches: what is kept, what is replaced. -/
structure Found where
  kept : Nat
  replaced : Nat

/-- What a match writes. -/
def Found.write (found : Found) (text tail : Text) : Nat × Text :=
  (found.kept + found.replaced, text.take found.kept ++ (redacted ++ tail))

/-- The letters a greedy class takes, if there are enough. -/
def atLeast (least : Nat) (holds : Char → Bool) (text : Text) : Option Nat :=
  let length := (text.takeWhile holds).length
  if least ≤ length then some length else none

/-! ## `_AUTH_PATTERN` -/

def isLineEnd (c : Char) : Bool := c == '\r' || c == '\n'

/-- The blanks behind the sign, of which the last are given back until the line goes on. -/
def valueBlanks (text : Text) : Option Nat :=
  (List.range ((text.takeWhile isSpace).length + 1)).reverse.find? fun blanks =>
    (text.drop blanks).head?.any fun c => !isLineEnd c

def authFound (text : Text) : Option Found := do
  guard (startsFolded "authorization" text)
  let gap := ((text.drop 13).takeWhile isSpace).length
  let sign ← text[13 + gap]?
  guard (sign == ':' || sign == '=')
  let blanks ← valueBlanks (text.drop (14 + gap))
  let length ← atLeast 1 (fun c => !isLineEnd c) (text.drop (14 + gap + blanks))
  return ⟨14 + gap + blanks, length⟩

/-- `_AUTH_PATTERN.sub`. -/
def authPattern (_ : Option Char) (text : Text) : Option (Nat × Text) :=
  (authFound text).map fun found => found.write text []

/-! ## `_URL_CREDENTIAL_PATTERN` -/

def isScheme (c : Char) : Bool :=
  isLatin c || c.isDigit || c == '+' || c == '.' || c == '-'

def isUser (c : Char) : Bool := !(c == '/' || c == '@' || c == ':' || isSpace c)

def isPassword (c : Char) : Bool := !(c == '/' || c == '@' || isSpace c)

/-- The user and the password up to the sign that ends them. -/
def urlFound (before : Option Char) (text : Text) : Option Found := do
  guard (!before.any isScheme && text.head?.any isLatin)
  let scheme := (text.takeWhile isScheme).length
  guard ("://".toList.isPrefixOf (text.drop scheme))
  let user := ((text.drop (scheme + 3)).takeWhile isUser).length
  guard (text[scheme + 3 + user]? == some ':')
  let password ← atLeast 1 isPassword (text.drop (scheme + 3 + user + 1))
  guard (text[scheme + 3 + (user + 1 + password)]? == some '@')
  return ⟨scheme + 3, user + 1 + password⟩

/-- `_URL_CREDENTIAL_PATTERN.sub`; the sign behind the password is written again. -/
def urlPattern (before : Option Char) (text : Text) : Option (Nat × Text) :=
  (urlFound before text).map fun found =>
    (found.kept + found.replaced + 1, (found.write text ['@']).2)

/-! ## `_QUERY_SECRET_PATTERN` -/

def queryNames : List String := ["token=", "key=", "secret=", "password=", "signature="]

def queryFound (text : Text) : Option Found := do
  guard (text.head?.any fun c => c == '?' || c == '&')
  let name ← queryNames.find? fun name => startsFolded name (text.drop 1)
  let length ← atLeast 1 (fun c => !(c == '&' || c == '#' || isSpace c))
    (text.drop (1 + name.toList.length))
  return ⟨1 + name.toList.length, length⟩

/-- `_QUERY_SECRET_PATTERN.sub`. -/
def queryPattern (_ : Option Char) (text : Text) : Option (Nat × Text) :=
  (queryFound text).map fun found => found.write text []

/-! ## `_TELEGRAM_BOT_TOKEN_PATTERN` -/

def isTokenLetter (c : Char) : Bool := c.isAlphanum || c == '_' || c == '-'

def telegramFound (language : Language) (before : Option Char) (text : Text) : Option Found := do
  guard (!before.any language.isDigit)
  let digits := (text.takeWhile language.isDigit).length
  guard (decide (6 ≤ digits ∧ digits ≤ 12) && text[digits]? == some ':')
  let length ← atLeast 20 isTokenLetter (text.drop (digits + 1))
  return ⟨0, digits + 1 + length⟩

/-- `_TELEGRAM_BOT_TOKEN_PATTERN.sub`. -/
def telegramPattern (language : Language) (before : Option Char) (text : Text) :
    Option (Nat × Text) :=
  (telegramFound language before text).map fun found => found.write text []

/-! ## `_CREDENTIAL_PATTERN` -/

def keyNames : List String := ["sk-", "sk_", "aiza", "synthetic-provider-key-"]

def isKeyLetter (c : Char) : Bool :=
  isLatin c || c.isDigit || c == '_' || c == '.' || c == '-'

/-- The length of a key at the front of the text. -/
def keyLength (text : Text) : Option Nat := do
  let name ← keyNames.find? fun name => startsFolded name text
  let length ← atLeast 8 isKeyLetter (text.drop name.toList.length)
  return name.toList.length + length

/-- The length of a key behind `bearer` and blanks. -/
def bearerLength (text : Text) : Option Nat := do
  guard (startsFolded "bearer" text)
  let blanks ← atLeast 1 isSpace (text.drop 6)
  let length ← keyLength (text.drop (6 + blanks))
  return 6 + blanks + length

/-- `_CREDENTIAL_PATTERN.sub`. -/
def credentialPattern (_ : Option Char) (text : Text) : Option (Nat × Text) :=
  ((bearerLength text).or (keyLength text)).map fun length =>
    (Found.mk 0 length).write text []

/-! ## What the patterns write -/

theorem atLeast_le {least : Nat} {holds : Char → Bool} {text : Text} {length : Nat}
    (found : atLeast least holds text = some length) : least ≤ length := by
  unfold atLeast at found
  dsimp only at found
  split at found
  · next enough =>
      cases found
      exact enough
  · cases found

/-- A match that writes the marker behind its front. -/
theorem write_marks {length : Nat} {text replacement : Text} {found : Found}
    (positive : 0 < found.kept + found.replaced)
    (same : found.write text [] = (length, replacement)) :
    0 < length ∧ ∃ kept tail, replacement = kept ++ (redacted ++ tail) ∧ kept <+: text ∧
      tail <:+ text.take length := by
  obtain ⟨rfl, rfl⟩ := Prod.mk.inj same
  exact ⟨positive, _, [], rfl, List.take_prefix _ _, List.nil_suffix⟩

theorem authPattern_marks : Marks redacted authPattern := by
  intro before text length replacement found
  obtain ⟨match', there, same⟩ := Option.map_eq_some_iff.mp found
  refine write_marks ?_ same
  simp only [authFound, bind, Option.bind_eq_some_iff, pure, Option.some.injEq] at there
  obtain ⟨_, _, _, _, _, _, blanks, _, length, _, rfl⟩ := there
  dsimp only
  omega

theorem queryPattern_marks : Marks redacted queryPattern := by
  intro before text length replacement found
  obtain ⟨match', there, same⟩ := Option.map_eq_some_iff.mp found
  refine write_marks ?_ same
  simp only [queryFound, bind, Option.bind_eq_some_iff, pure, Option.some.injEq] at there
  obtain ⟨_, _, name, _, length, _, rfl⟩ := there
  dsimp only
  omega

theorem telegramPattern_marks (language : Language) :
    Marks redacted (telegramPattern language) := by
  intro before text length replacement found
  obtain ⟨match', there, same⟩ := Option.map_eq_some_iff.mp found
  refine write_marks ?_ same
  simp only [telegramFound, bind, Option.bind_eq_some_iff, pure, Option.some.injEq] at there
  obtain ⟨_, _, _, _, length, _, rfl⟩ := there
  dsimp only
  omega

theorem keyLength_pos {text : Text} {length : Nat} (found : keyLength text = some length) :
    0 < length := by
  simp only [keyLength, bind, Option.bind_eq_some_iff, pure, Option.some.injEq] at found
  obtain ⟨name, _, tail, enough, rfl⟩ := found
  have := atLeast_le enough
  omega

theorem credentialPattern_marks : Marks redacted credentialPattern := by
  intro before text length replacement found
  obtain ⟨size, there, same⟩ := Option.map_eq_some_iff.mp found
  refine write_marks ?_ same
  have positive : 0 < size := by
    rcases Option.or_eq_some_iff.mp there with bearer | ⟨_, key⟩
    · simp only [bearerLength, bind, Option.bind_eq_some_iff, pure, Option.some.injEq] at bearer
      obtain ⟨_, _, blanks, _, key, _, rfl⟩ := bearer
      omega
    · exact keyLength_pos key
  dsimp only
  omega

/-- The sign behind the password is the end of the match. -/
theorem urlPattern_marks : Marks redacted urlPattern := by
  intro before text length replacement found
  obtain ⟨match', there, same⟩ := Option.map_eq_some_iff.mp found
  obtain ⟨rfl, rfl⟩ := Prod.mk.inj same
  simp only [urlFound, bind, Option.bind_eq_some_iff, pure, Option.some.injEq] at there
  obtain ⟨_, _, _, _, _, _, password, _, _, sign, rfl⟩ := there
  have last : text[(text.takeWhile isScheme).length + 3 +
      ((List.takeWhile isUser (List.drop ((text.takeWhile isScheme).length + 3) text)).length + 1 +
        password)]? = some '@' := by
    by_cases checked : (text[(text.takeWhile isScheme).length + 3 +
        ((List.takeWhile isUser (List.drop ((text.takeWhile isScheme).length + 3) text)).length +
          1 + password)]? == some '@') = true
    · exact eq_of_beq checked
    · rw [guard, if_neg checked] at sign
      cases sign
  refine ⟨Nat.succ_pos _, _, ['@'], rfl, List.take_prefix _ _, ?_⟩
  rw [List.take_add_one, last]
  exact List.suffix_append _ _

end BobbyBotique.Observability
