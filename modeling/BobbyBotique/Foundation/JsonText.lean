import BobbyBotique.Foundation.Text
import Mathlib.Data.List.Basic

/-!
# The text of a JSON value

A printer with compact separators and a reader that builds a value as it goes.  What
the reader makes of an object may fail; on a printed text it gives what the value is
built to, and fails exactly where that does.
-/

namespace BobbyBotique.JsonText

inductive JsonTree where
  | null
  | bool (value : Bool)
  | int (value : Int)
  | str (value : List Char)
  | arr (items : List JsonTree)
  | obj (fields : List (List Char × JsonTree))

/-! ## The printer -/

def hexDigit (n : Nat) : Char := Nat.digitChar n

/-- A character between the quotes. -/
def escape (c : Char) : List Char :=
  if c = '"' then ['\\', '"']
  else if c = '\\' then ['\\', '\\']
  else if c = '\n' then ['\\', 'n']
  else if c = '\r' then ['\\', 'r']
  else if c = '\t' then ['\\', 't']
  else if c = '\x0c' then ['\\', 'f']
  else if c = '\x08' then ['\\', 'b']
  else if c.toNat < 32 then ['\\', 'u', '0', '0', hexDigit (c.toNat / 16), hexDigit (c.toNat % 16)]
  else [c]

def quoted (text : List Char) : List Char := '"' :: (text.flatMap escape ++ ['"'])

def printInt (value : Int) : List Char :=
  if value < 0 then '-' :: Nat.toDigits 10 value.natAbs else Nat.toDigits 10 value.natAbs

mutual

/-- `json.dumps` with `ensure_ascii=False` and the separators `,` and `:`. -/
def dumps : JsonTree → List Char
  | .null => ['n', 'u', 'l', 'l']
  | .bool true => ['t', 'r', 'u', 'e']
  | .bool false => ['f', 'a', 'l', 's', 'e']
  | .int value => printInt value
  | .str value => quoted value
  | .arr [] => ['[', ']']
  | .arr (item :: rest) => '[' :: (dumps item ++ dumpsItems rest)
  | .obj [] => ['{', '}']
  | .obj ((key, value) :: rest) =>
    '{' :: (quoted key ++ ':' :: (dumps value ++ dumpsFields rest))

/-- The rest of an array. -/
def dumpsItems : List JsonTree → List Char
  | [] => [']']
  | item :: rest => ',' :: (dumps item ++ dumpsItems rest)

/-- The rest of an object. -/
def dumpsFields : List (List Char × JsonTree) → List Char
  | [] => ['}']
  | (key, value) :: rest => ',' :: (quoted key ++ ':' :: (dumps value ++ dumpsFields rest))

end

/-! ## The reader -/

/-- What the reader makes of each kind of value. -/
structure Builder (V : Type) where
  null : V
  bool : Bool → V
  int : Int → V
  str : List Char → V
  arr : List V → V
  obj : List (List Char × V) → Option V

def isBlank (c : Char) : Bool := [' ', '\t', '\n', '\r'].contains c

def skip (text : List Char) : List Char := text.dropWhile isBlank

def hexValue (c : Char) : Option Nat :=
  if c.isDigit then some (c.toNat - 48)
  else if 'a' ≤ c ∧ c ≤ 'f' then some (c.toNat - 87)
  else if 'A' ≤ c ∧ c ≤ 'F' then some (c.toNat - 55)
  else none

def hexValue4 (a b c d : Char) : Option Nat := do
  let first ← hexValue a
  let second ← hexValue b
  let third ← hexValue c
  let fourth ← hexValue d
  return ((first * 16 + second) * 16 + third) * 16 + fourth

def isSurrogate (code : Nat) : Bool := 0xD800 ≤ code && code < 0xE000

/-- The character of a surrogate pair. -/
def joinPair (high low : Nat) : Option Char :=
  if high < 0xDC00 ∧ 0xDC00 ≤ low ∧ low < 0xE000 then
    some (Char.ofNat (0x10000 + (high - 0xD800) * 0x400 + (low - 0xDC00)))
  else none

/-- The character of one letter after a backslash. -/
def unescape (c : Char) : Option Char :=
  match c with
  | '"' => some '"'
  | '\\' => some '\\'
  | '/' => some '/'
  | 'b' => some '\x08'
  | 'f' => some '\x0c'
  | 'n' => some '\n'
  | 'r' => some '\r'
  | 't' => some '\t'
  | _ => none

/-- The characters up to the closing quote.  Half of a surrogate pair is no character. -/
def readString : List Char → Option (List Char × List Char)
  | [] => none
  | '"' :: rest => some ([], rest)
  | '\\' :: 'u' :: a :: b :: c :: d :: rest =>
    match hexValue4 a b c d with
    | none => none
    | some code =>
      if isSurrogate code then
        match rest with
        | '\\' :: 'u' :: e :: f :: g :: h :: rest =>
          match (hexValue4 e f g h).bind (joinPair code) with
          | none => none
          | some joined => (readString rest).map fun read => (joined :: read.1, read.2)
        | _ => none
      else (readString rest).map fun read => (Char.ofNat code :: read.1, read.2)
  | '\\' :: c :: rest =>
    match unescape c with
    | none => none
    | some plain => (readString rest).map fun read => (plain :: read.1, read.2)
  | c :: rest =>
    if c.toNat < 32 then none
    else (readString rest).map fun read => (c :: read.1, read.2)

def startsFloat : List Char → Bool
  | '.' :: c :: _ => c.isDigit
  | 'e' :: _ => true
  | 'E' :: _ => true
  | _ => false

/-- The digits of a whole number; floats are not among the values. -/
def readDigits (text : List Char) : Option (Nat × List Char) :=
  match text with
  | '0' :: rest => if startsFloat rest then none else some (0, rest)
  | _ =>
    let digits := text.takeWhile Char.isDigit
    let rest := text.dropWhile Char.isDigit
    if digits = [] then none
    else if startsFloat rest then none
    else some (Nat.ofDigitChars 10 digits 0, rest)

def readInt (text : List Char) : Option (Int × List Char) :=
  match text with
  | '-' :: rest => (readDigits rest).map fun read => (-(read.1 : Int), read.2)
  | _ => (readDigits text).map fun read => ((read.1 : Int), read.2)

section

variable {V : Type} (builder : Builder V)

mutual

/-- A value at the start of the text, and the text behind it. -/
def readValue : Nat → List Char → Option (V × List Char)
  | 0, _ => none
  | fuel + 1, text =>
    match text with
    | '"' :: rest => (readString rest).map fun read => (builder.str read.1, read.2)
    | '[' :: rest =>
      match skip rest with
      | ']' :: rest => some (builder.arr [], rest)
      | rest => (readItems fuel rest).map fun read => (builder.arr read.1, read.2)
    | '{' :: rest =>
      match skip rest with
      | '}' :: rest => (builder.obj []).map fun made => (made, rest)
      | rest =>
        (readFields fuel rest).bind fun read =>
          (builder.obj read.1).map fun made => (made, read.2)
    | 'n' :: 'u' :: 'l' :: 'l' :: rest => some (builder.null, rest)
    | 't' :: 'r' :: 'u' :: 'e' :: rest => some (builder.bool true, rest)
    | 'f' :: 'a' :: 'l' :: 's' :: 'e' :: rest => some (builder.bool false, rest)
    | text => (readInt text).map fun read => (builder.int read.1, read.2)

/-- The items of an array up to its closing bracket. -/
def readItems : Nat → List Char → Option (List V × List Char)
  | 0, _ => none
  | fuel + 1, text =>
    (readValue fuel text).bind fun item =>
      match skip item.2 with
      | ']' :: rest => some ([item.1], rest)
      | ',' :: rest =>
        (readItems fuel (skip rest)).map fun read => (item.1 :: read.1, read.2)
      | _ => none

/-- The fields of an object up to its closing brace. -/
def readFields : Nat → List Char → Option (List (List Char × V) × List Char)
  | 0, _ => none
  | fuel + 1, text =>
    match text with
    | '"' :: rest =>
      (readString rest).bind fun key =>
        match skip key.2 with
        | ':' :: rest =>
          (readValue fuel (skip rest)).bind fun value =>
            match skip value.2 with
            | '}' :: rest => some ([(key.1, value.1)], rest)
            | ',' :: rest =>
              (readFields fuel (skip rest)).map fun read =>
                ((key.1, value.1) :: read.1, read.2)
            | _ => none
        | _ => none
    | _ => none

end

/-- `json.loads`, where the builder stands for the types of Python and the hook. -/
def loads (text : List Char) : Option V :=
  match readValue builder (text.length + 1) (skip text) with
  | some (value, rest) => if skip rest = [] then some value else none
  | none => none

/-! ## What a value is built to -/

mutual

def build : JsonTree → Option V
  | .null => some builder.null
  | .bool value => some (builder.bool value)
  | .int value => some (builder.int value)
  | .str value => some (builder.str value)
  | .arr items => (buildItems items).map builder.arr
  | .obj fields => (buildFields fields).bind builder.obj

def buildItems : List JsonTree → Option (List V)
  | [] => some []
  | item :: rest => (build item).bind fun made => (buildItems rest).map fun more => made :: more

def buildFields : List (List Char × JsonTree) → Option (List (List Char × V))
  | [] => some []
  | (key, value) :: rest =>
    (build value).bind fun made => (buildFields rest).map fun more => (key, made) :: more

end

mutual

/-- How often the reader calls itself on a printed value. -/
def size : JsonTree → Nat
  | .arr (item :: rest) => 1 + (size item + sizeItems rest)
  | .obj ((_, value) :: rest) => 1 + (size value + sizeFields rest)
  | _ => 1

def sizeItems : List JsonTree → Nat
  | [] => 1
  | item :: rest => 1 + (size item + sizeItems rest)

def sizeFields : List (List Char × JsonTree) → Nat
  | [] => 1
  | (_, value) :: rest => 1 + (size value + sizeFields rest)

end

/-! ## Reading back what was printed -/

theorem hexValue_hexDigit : ∀ n < 16, hexValue (hexDigit n) = some n := by
  decide

theorem readString_escape (c : Char) (rest : List Char) :
    readString (escape c ++ rest) =
      (readString rest).map fun read => (c :: read.1, read.2) := by
  unfold escape
  split
  · next same => subst same; rfl
  split
  · next same => subst same; rfl
  split
  · next same => subst same; rfl
  split
  · next same => subst same; rfl
  split
  · next same => subst same; rfl
  split
  · next same => subst same; rfl
  split
  · next same => subst same; rfl
  split
  · next small =>
      have high := hexValue_hexDigit (c.toNat / 16) (by omega)
      have low := hexValue_hexDigit (c.toNat % 16) (by omega)
      have zero : hexValue '0' = some 0 := rfl
      have code : hexValue4 '0' '0' (hexDigit (c.toNat / 16)) (hexDigit (c.toNat % 16)) =
          some c.toNat := by
        unfold hexValue4
        rw [zero, high, low]
        show some _ = _
        rw [show ((0 * 16 + 0) * 16 + c.toNat / 16) * 16 + c.toNat % 16 = c.toNat by omega]
      have plain : isSurrogate c.toNat = false := by
        unfold isSurrogate
        rw [decide_eq_false (by omega), Bool.false_and]
      simp only [List.cons_append, List.nil_append]
      rw [readString, code]
      dsimp only
      rw [plain, Char.ofNat_toNat]
      rfl
  · next quote backslash _ _ _ _ _ large =>
      rw [List.singleton_append, readString.eq_def]
      split
      · next absurd => cases absurd
      · next same =>
          cases same
          exact absurd rfl quote
      · next same =>
          cases same
          exact absurd rfl backslash
      · next same =>
          cases same
          exact absurd rfl backslash
      · next same =>
          cases same
          exact if_neg large

theorem readString_quoted (text rest : List Char) :
    readString (text.flatMap escape ++ '"' :: rest) = some (text, rest) := by
  induction text with
  | nil => rfl
  | cons c text ih =>
    rw [List.flatMap_cons, List.append_assoc, readString_escape, ih]
    rfl

/-- No number goes on behind the text. -/
def stops : List Char → Bool
  | [] => true
  | c :: _ => !(c.isDigit || c = '.' || c = 'e' || c = 'E')

theorem not_startsFloat {rest : List Char} (stop : stops rest = true) :
    startsFloat rest = false := by
  unfold startsFloat
  split
  · cases stop
  · cases stop
  · cases stop
  · rfl

theorem dropWhile_stops {rest : List Char} (stop : stops rest = true) :
    rest.takeWhile Char.isDigit = [] ∧ rest.dropWhile Char.isDigit = rest := by
  cases rest with
  | nil => exact ⟨rfl, rfl⟩
  | cons c rest =>
    have plain : c.isDigit = false := by
      have last : (!(c.isDigit || c = '.' || c = 'e' || c = 'E')) = true := stop
      cases digit : c.isDigit with
      | false => rfl
      | true =>
        rw [digit] at last
        cases last
    exact ⟨List.takeWhile_cons_of_neg (ne_true_of_eq_false plain),
      List.dropWhile_cons_of_neg (ne_true_of_eq_false plain)⟩

/-- The first digit of a number other than zero. -/
theorem toDigits_head {n : Nat} (positive : 0 < n) :
    ∃ c rest, Nat.toDigits 10 n = c :: rest ∧ c ≠ '0' := by
  induction n using Nat.strongRecOn with
  | ind n ih =>
    by_cases small : n < 10
    · refine ⟨n.digitChar, [], Nat.toDigits_of_lt_base small, ?_⟩
      have checked : ∀ m < 10, 0 < m → m.digitChar ≠ '0' := by decide
      exact checked n small positive
    · obtain ⟨c, rest, shape, nonzero⟩ := ih (n / 10) (by omega) (by omega)
      refine ⟨c, rest ++ [(n % 10).digitChar], ?_, nonzero⟩
      rw [Nat.toDigits_of_base_le (by decide) (by omega), shape]
      rfl

theorem readDigits_toDigits (n : Nat) {rest : List Char} (stop : stops rest = true) :
    readDigits (Nat.toDigits 10 n ++ rest) = some (n, rest) := by
  obtain ⟨taken, dropped⟩ := dropWhile_stops stop
  have digits : ∀ c ∈ Nat.toDigits 10 n, c.isDigit = true :=
    fun c member => Nat.isDigit_of_mem_toDigits (by decide) (by decide) member
  cases Nat.eq_zero_or_pos n with
  | inl zero =>
    rw [zero, Nat.toDigits_zero]
    show (if startsFloat rest = true then none else some (0, rest)) = _
    rw [not_startsFloat stop]
    rfl
  | inr positive =>
    obtain ⟨c, more, shape, nonzero⟩ := toDigits_head positive
    unfold readDigits
    split
    · next same =>
        rw [shape] at same
        cases same
        exact absurd rfl nonzero
    · rw [List.takeWhile_append_of_pos digits, List.dropWhile_append_of_pos digits, taken,
        dropped, List.append_nil]
      dsimp only
      rw [if_neg Nat.toDigits_ne_nil, not_startsFloat stop, Nat.ofDigitChars_ten_toDigits]
      rfl

theorem readInt_printInt (value : Int) {rest : List Char} (stop : stops rest = true) :
    readInt (printInt value ++ rest) = some (value, rest) := by
  unfold printInt
  split
  · next negative =>
      show (readDigits (Nat.toDigits 10 value.natAbs ++ rest)).map _ = _
      rw [readDigits_toDigits _ stop, Option.map_some]
      dsimp only
      rw [show -(value.natAbs : Int) = value by omega]
  · next positive =>
      have head : ∀ more, Nat.toDigits 10 value.natAbs ++ rest ≠ '-' :: more := by
        intro more same
        cases shape : Nat.toDigits 10 value.natAbs with
        | nil => exact Nat.toDigits_ne_nil shape
        | cons c digits =>
          rw [shape] at same
          cases same
          have digit := Nat.isDigit_of_mem_toDigits (b := 10) (n := value.natAbs) (c := '-')
            (by decide) (by decide) (shape ▸ List.mem_cons_self)
          cases digit
      unfold readInt
      split
      · next same => exact absurd same (head _)
      · rw [readDigits_toDigits _ stop, Option.map_some]
        dsimp only
        rw [show (value.natAbs : Int) = value by omega]

theorem printInt_head (value : Int) : ∃ c rest, printInt value = c :: rest ∧
    (c = '-' ∨ c.isDigit = true) := by
  unfold printInt
  split
  · exact ⟨'-', _, rfl, .inl rfl⟩
  · cases shape : Nat.toDigits 10 value.natAbs with
    | nil => exact absurd shape Nat.toDigits_ne_nil
    | cons c digits =>
      exact ⟨c, digits, rfl, .inr (Nat.isDigit_of_mem_toDigits (b := 10) (n := value.natAbs)
        (by decide) (by decide) (shape ▸ List.mem_cons_self))⟩

variable {V : Type} (builder : Builder V)

theorem skip_of_plain {c : Char} {rest : List Char} (plain : isBlank c = false) :
    skip (c :: rest) = c :: rest :=
  List.dropWhile_cons_of_neg (ne_true_of_eq_false plain)

/-- A printed value starts with no blank and no closing bracket. -/
theorem dumps_head (tree : JsonTree) :
    ∃ c rest, dumps tree = c :: rest ∧ isBlank c = false ∧ c ≠ ']' := by
  cases tree with
  | null => exact ⟨_, _, rfl, rfl, by decide⟩
  | bool value =>
    cases value with
    | true | false => exact ⟨_, _, rfl, rfl, by decide⟩
  | int value =>
    obtain ⟨c, rest, shape, dash | digit⟩ := printInt_head value
    · exact ⟨c, rest, shape, dash ▸ rfl, dash ▸ by decide⟩
    · refine ⟨c, rest, shape, ?_, ?_⟩
      · cases blank : isBlank c with
        | false => rfl
        | true =>
          have among := List.contains_iff_mem.mp blank
          have letters : ∀ letter ∈ [' ', '\t', '\n', '\r'], letter.isDigit = false :=
            forall_mem_of_all (by decide)
          rw [letters c among] at digit
          cases digit
      · rintro rfl
        cases digit
  | str value => exact ⟨_, _, rfl, rfl, by decide⟩
  | arr items =>
    cases items with
    | nil | cons => exact ⟨_, _, rfl, rfl, by decide⟩
  | obj fields =>
    cases fields with
    | nil | cons => exact ⟨_, _, rfl, rfl, by decide⟩

theorem dumpsItems_stops (items : List JsonTree) (rest : List Char) :
    stops (dumpsItems items ++ rest) = true := by
  cases items with
  | nil | cons => rfl

theorem dumpsFields_stops (fields : List (List Char × JsonTree)) (rest : List Char) :
    stops (dumpsFields fields ++ rest) = true := by
  cases fields with
  | nil | cons => rfl

/-- A number is read by the last case of the reader. -/
theorem readValue_int {c : Char} {rest : List Char} (start : c = '-' ∨ c.isDigit = true)
    (fuel : Nat) : readValue builder (fuel + 1) (c :: rest) =
      (readInt (c :: rest)).map fun read => (builder.int read.1, read.2) := by
  have apart : ∀ letter ∈ ['"', '[', '{', 'n', 't', 'f'], c ≠ letter := by
    rintro letter among rfl
    have letters : ∀ letter ∈ ['"', '[', '{', 'n', 't', 'f'],
        ¬(letter = '-' ∨ letter.isDigit = true) :=
      forall_mem_of_all (by decide)
    exact letters c among start
  rw [readValue]
  all_goals
    intro _ same
    cases same
    exact absurd rfl (apart _ (by decide))

theorem readValue_arr {c : Char} {text : List Char} (plain : isBlank c = false) (some' : c ≠ ']')
    (fuel : Nat) : readValue builder (fuel + 1) ('[' :: c :: text) =
      (readItems builder fuel (c :: text)).map fun read => (builder.arr read.1, read.2) := by
  rw [readValue, skip_of_plain plain]
  split
  · next same =>
      cases same
      exact absurd rfl some'
  · rfl

theorem readValue_obj (text : List Char) (fuel : Nat) :
    readValue builder (fuel + 1) ('{' :: '"' :: text) =
      (readFields builder fuel ('"' :: text)).bind fun read =>
        (builder.obj read.1).map fun made => (made, read.2) := rfl

/-- The text of a list of items behind its bracket. -/
def printedItems : List JsonTree → List Char
  | [] => []
  | item :: rest => dumps item ++ dumpsItems rest

def printedFields : List (List Char × JsonTree) → List Char
  | [] => []
  | (key, value) :: rest => quoted key ++ ':' :: (dumps value ++ dumpsFields rest)

theorem size_pos (tree : JsonTree) : 0 < size tree := by
  unfold size
  split
  · exact Nat.add_pos_left Nat.one_pos _
  · exact Nat.add_pos_left Nat.one_pos _
  · exact Nat.one_pos

theorem sizeItems_pos (items : List JsonTree) : 0 < sizeItems items := by
  unfold sizeItems
  split
  · exact Nat.one_pos
  · exact Nat.add_pos_left Nat.one_pos _

theorem sizeFields_pos (fields : List (List Char × JsonTree)) : 0 < sizeFields fields := by
  unfold sizeFields
  split
  · exact Nat.one_pos
  · exact Nat.add_pos_left Nat.one_pos _

/-- One item and what stands behind it. -/
theorem readItems_step {fuel : Nat} {text rest : List Char} {made : Option V}
    (item : readValue builder fuel text = made.map fun value => (value, rest)) :
    readItems builder (fuel + 1) text = made.bind fun value =>
      match skip rest with
      | ']' :: rest => some ([value], rest)
      | ',' :: rest =>
        (readItems builder fuel (skip rest)).map fun read => (value :: read.1, read.2)
      | _ => none := by
  rw [readItems, item]
  cases made with
  | none | some => rfl

theorem readFields_step {fuel : Nat} {key text rest : List Char} {made : Option V}
    (skipped : skip text = text)
    (value : readValue builder fuel text = made.map fun value => (value, rest)) :
    readFields builder (fuel + 1) (quoted key ++ ':' :: text) = made.bind fun value =>
      match skip rest with
      | '}' :: rest => some ([(key, value)], rest)
      | ',' :: rest =>
        (readFields builder fuel (skip rest)).map fun read => ((key, value) :: read.1, read.2)
      | _ => none := by
  have read := readString_quoted key (':' :: text)
  unfold quoted
  rw [List.cons_append, List.append_assoc]
  show readFields builder (fuel + 1) ('"' :: (key.flatMap escape ++ '"' :: ':' :: text)) = _
  rw [readFields, read]
  show (readValue builder fuel (skip text)).bind _ = _
  rw [skipped, value]
  cases made with
  | none | some => rfl

theorem skip_dumps (tree : JsonTree) (rest : List Char) :
    skip (dumps tree ++ rest) = dumps tree ++ rest := by
  obtain ⟨c, more, shape, plain, _⟩ := dumps_head tree
  rw [shape]
  exact skip_of_plain plain

mutual

theorem readValue_dumps : (tree : JsonTree) → (fuel : Nat) → (rest : List Char) →
    size tree ≤ fuel → stops rest = true →
    readValue builder fuel (dumps tree ++ rest) =
      (build builder tree).map fun made => (made, rest)
  | tree, 0, _, enough, _ => absurd (size_pos tree) (Nat.not_lt.mpr enough)
  | .null, _ + 1, _, _, _ => rfl
  | .bool true, _ + 1, _, _, _ => rfl
  | .bool false, _ + 1, _, _, _ => rfl
  | .int value, fuel + 1, rest, _, stop => by
      obtain ⟨c, more, shape, start⟩ := printInt_head value
      have read := readInt_printInt value stop
      show readValue builder (fuel + 1) (printInt value ++ rest) = _
      rw [shape] at read ⊢
      rw [List.cons_append, readValue_int builder start, ← List.cons_append, read]
      rfl
  | .str value, fuel + 1, rest, _, _ => by
      have read := readString_quoted value rest
      show readValue builder (fuel + 1) (quoted value ++ rest) = _
      unfold quoted
      rw [List.cons_append, List.append_assoc]
      show (readString (value.flatMap escape ++ '"' :: rest)).map _ = _
      rw [read]
      rfl
  | .arr [], _ + 1, _, _, _ => rfl
  | .arr (item :: more), fuel + 1, rest, enough, stop => by
      obtain ⟨c, text, shape, plain, some'⟩ := dumps_head item
      have items := readItems_dumps (item :: more) fuel rest (List.cons_ne_nil item more) enough
      show readValue builder (fuel + 1) ('[' :: (dumps item ++ dumpsItems more ++ rest)) = _
      rw [printedItems] at items
      rw [shape] at items ⊢
      rw [List.cons_append, List.cons_append] at items ⊢
      rw [readValue_arr builder plain some', items, build, Option.map_map, Option.map_map]
      rfl
  | .obj [], _ + 1, _, _, _ => rfl
  | .obj ((key, value) :: more), fuel + 1, rest, enough, stop => by
      have fields := readFields_dumps ((key, value) :: more) fuel rest
        (List.cons_ne_nil _ more) enough
      show readValue builder (fuel + 1)
        ('{' :: '"' :: (key.flatMap escape ++ ['"'] ++ ':' :: (dumps value ++ dumpsFields more) ++
          rest)) = _
      rw [readValue_obj]
      have same : readFields builder fuel ('"' :: (key.flatMap escape ++ ['"'] ++
          ':' :: (dumps value ++ dumpsFields more) ++ rest)) = _ := fields
      rw [same, build]
      cases buildFields builder ((key, value) :: more) with
      | none | some => rfl

theorem readItems_dumps : (items : List JsonTree) → (fuel : Nat) → (rest : List Char) →
    items ≠ [] → sizeItems items ≤ fuel + 1 →
    readItems builder fuel (printedItems items ++ rest) =
      (buildItems builder items).map fun made => (made, rest)
  | [], _, _, some', _ => absurd rfl some'
  | item :: more, 0, _, _, enough => by
      have := size_pos item
      have := sizeItems_pos more
      rw [sizeItems] at enough
      omega
  | [item], fuel + 1, rest, _, enough => by
      have small : size item ≤ fuel := by
        rw [sizeItems, sizeItems] at enough
        omega
      have read := readValue_dumps item fuel (']' :: rest) small rfl
      show readItems builder (fuel + 1) (dumps item ++ [']'] ++ rest) = _
      rw [List.append_assoc]
      refine (readItems_step builder read).trans ?_
      rw [buildItems, buildItems]
      cases build builder item with
      | none | some => rfl
  | item :: next :: more, fuel + 1, rest, _, enough => by
      have small : size item ≤ fuel := by
        have := sizeItems_pos (next :: more)
        rw [sizeItems] at enough
        omega
      have fewer : sizeItems (next :: more) ≤ fuel + 1 := by
        have := size_pos item
        rw [sizeItems] at enough
        omega
      have read := readValue_dumps item fuel (dumpsItems (next :: more) ++ rest) small
        (dumpsItems_stops _ rest)
      have items := readItems_dumps (next :: more) fuel rest (List.cons_ne_nil next more) fewer
      show readItems builder (fuel + 1) (dumps item ++ dumpsItems (next :: more) ++ rest) = _
      rw [List.append_assoc]
      refine (readItems_step builder read).trans ?_
      rw [buildItems]
      cases build builder item with
      | none => rfl
      | some made =>
        show (readItems builder fuel (skip (dumps next ++ dumpsItems more ++ rest))).map _ = _
        rw [List.append_assoc, skip_dumps, ← List.append_assoc]
        rw [printedItems] at items
        rw [items, Option.map_map, Option.bind_some, Option.map_map]
        rfl

theorem readFields_dumps : (fields : List (List Char × JsonTree)) → (fuel : Nat) →
    (rest : List Char) → fields ≠ [] → sizeFields fields ≤ fuel + 1 →
    readFields builder fuel (printedFields fields ++ rest) =
      (buildFields builder fields).map fun made => (made, rest)
  | [], _, _, some', _ => absurd rfl some'
  | (key, value) :: more, 0, _, _, enough => by
      have := size_pos value
      have := sizeFields_pos more
      rw [sizeFields] at enough
      omega
  | [(key, value)], fuel + 1, rest, _, enough => by
      have small : size value ≤ fuel := by
        rw [sizeFields, sizeFields] at enough
        omega
      have read := readValue_dumps value fuel ('}' :: rest) small rfl
      have shape : printedFields [(key, value)] ++ rest =
          quoted key ++ ':' :: (dumps value ++ '}' :: rest) := by
        rw [printedFields, dumpsFields, List.append_assoc, List.cons_append, List.append_assoc]
        rfl
      rw [shape]
      refine (readFields_step builder (skip_dumps value _) read).trans ?_
      rw [buildFields, buildFields]
      cases build builder value with
      | none | some => rfl
  | (key, value) :: (other, next) :: more, fuel + 1, rest, _, enough => by
      have small : size value ≤ fuel := by
        have := sizeFields_pos ((other, next) :: more)
        rw [sizeFields] at enough
        omega
      have fewer : sizeFields ((other, next) :: more) ≤ fuel + 1 := by
        have := size_pos value
        rw [sizeFields] at enough
        omega
      have read := readValue_dumps value fuel (dumpsFields ((other, next) :: more) ++ rest) small
        (dumpsFields_stops _ rest)
      have fields := readFields_dumps ((other, next) :: more) fuel rest
        (List.cons_ne_nil _ more) fewer
      have shape : printedFields ((key, value) :: (other, next) :: more) ++ rest = quoted key ++
          ':' :: (dumps value ++ (dumpsFields ((other, next) :: more) ++ rest)) := by
        rw [printedFields, List.append_assoc, List.cons_append, List.append_assoc]
      rw [shape]
      refine (readFields_step builder (skip_dumps value _) read).trans ?_
      rw [buildFields]
      cases build builder value with
      | none => rfl
      | some made =>
        show (readFields builder fuel (skip (printedFields ((other, next) :: more) ++ rest))).map
          (fun read => ((key, made) :: read.1, read.2)) = _
        have start : skip (printedFields ((other, next) :: more) ++ rest) =
            printedFields ((other, next) :: more) ++ rest := rfl
        rw [start, fields, Option.map_map, Option.bind_some, Option.map_map]
        rfl

end

mutual

theorem size_le_dumps : (tree : JsonTree) → size tree ≤ (dumps tree).length
  | .null => by decide
  | .bool true => by decide
  | .bool false => by decide
  | .int value => by
      obtain ⟨c, rest, shape, _⟩ := printInt_head value
      show 1 ≤ (printInt value).length
      rw [shape]
      exact Nat.succ_le_succ (Nat.zero_le _)
  | .str value => Nat.succ_le_succ (Nat.zero_le _)
  | .arr [] => by decide
  | .arr (item :: rest) => by
      have first := size_le_dumps item
      have more := sizeItems_le_dumps rest
      rw [size, dumps, List.length_cons, List.length_append]
      omega
  | .obj [] => by decide
  | .obj ((key, value) :: rest) => by
      have first := size_le_dumps value
      have more := sizeFields_le_dumps rest
      rw [size, dumps, List.length_cons, List.length_append, List.length_cons, List.length_append]
      omega

theorem sizeItems_le_dumps : (items : List JsonTree) → sizeItems items ≤ (dumpsItems items).length
  | [] => by decide
  | item :: rest => by
      have first := size_le_dumps item
      have more := sizeItems_le_dumps rest
      rw [sizeItems, dumpsItems, List.length_cons, List.length_append]
      omega

theorem sizeFields_le_dumps : (fields : List (List Char × JsonTree)) →
    sizeFields fields ≤ (dumpsFields fields).length
  | [] => by decide
  | (key, value) :: rest => by
      have first := size_le_dumps value
      have more := sizeFields_le_dumps rest
      rw [sizeFields, dumpsFields, List.length_cons, List.length_append, List.length_cons,
        List.length_append]
      omega

end

/-- What is read from a printed value is what the value is built to. -/
theorem loads_dumps (tree : JsonTree) : loads builder (dumps tree) = build builder tree := by
  have read := readValue_dumps builder tree ((dumps tree).length + 1) []
    (Nat.le_succ_of_le (size_le_dumps tree)) rfl
  have start := skip_dumps tree []
  rw [List.append_nil] at read start
  unfold loads
  rw [start, read]
  cases build builder tree with
  | none | some => rfl

end

end BobbyBotique.JsonText
