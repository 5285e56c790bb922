import BobbyBotique.Foundation.Text

/-!
# Splitting a message

`split_text_safe` cuts an HTML text into chunks.  The tags that are open at a
cut are closed behind the chunk and opened again before the rest.  The marked
split is the same function over characters that remember whether they stand in
the input; it shows what the chunks keep of the text.
-/

namespace BobbyBotique.Delivery

/-- What `\w` matches. -/
abbrev WordChars := Char → Bool

/-- A tag of the text, with all its characters. -/
structure Tag where
  closing : Bool
  name : List Char
  full : List Char
  deriving DecidableEq

/-- The match of `<(/?)(\w+)[^>]*>` at the front of a text. -/
def tagAt (word : WordChars) : List Char → Option Tag
  | '<' :: rest =>
    let slash := rest.head? == some '/'
    let body := if slash then rest.tail else rest
    let name := body.takeWhile word
    let attributes := (body.dropWhile word).takeWhile (· ≠ '>')
    if name.isEmpty then none
    else
      match (body.dropWhile word).dropWhile (· ≠ '>') with
      | [] => none
      | close :: _ =>
        some
          { closing := slash
            name := name
            full := '<' :: ((if slash then ['/'] else []) ++ name ++ attributes ++ [close]) }
  | _ => none

/-- The tags `finditer` finds, `skip` characters behind the front. -/
def findTags (word : WordChars) : Nat → List Char → List Tag
  | _, [] => []
  | skip + 1, _ :: rest => findTags word skip rest
  | 0, c :: rest =>
    match tagAt word (c :: rest) with
    | some tag => tag :: findTags word (tag.full.length - 1) rest
    | none => findTags word 0 rest

/-- One tag against the stack of open tags, whose top stands first. -/
def pushTag (stack : List Tag) (tag : Tag) : List Tag :=
  if tag.name = "br".toList ∨ tag.name = "img".toList ∨ tag.name = "hr".toList then stack
  else if !tag.closing then tag :: stack
  else
    match stack with
    | [] => []
    | top :: rest => if top.name = tag.name then rest else top :: rest

/-- The tags a chunk leaves open. -/
def openTags (word : WordChars) (chunk : List Char) : List Tag :=
  (findTags word 0 chunk).foldl pushTag []

/-- The tags that close a stack, from its top. -/
def closingText (stack : List Tag) : List Char :=
  stack.flatMap fun tag => "</".toList ++ tag.name ++ ">".toList

/-- The tags that open a stack again, from its bottom. -/
def openingText (stack : List Tag) : List Char := stack.reverse.flatMap Tag.full

/-- The place of the last preferred cut before the limit, and behind what it cuts. -/
def preferredCut (text : List Char) (limit : Nat) : Option Nat :=
  let pre := rfind "</pre>".toList text limit
  let paragraph := rfind "\n\n".toList text limit
  let line := rfind "\n".toList text limit
  let sentence := rfind ". ".toList text limit
  ([pre, paragraph, line, sentence].filterMap id).max?.map fun cut =>
    if pre = some cut then cut + 6
    else if paragraph = some cut then cut + 2
    else if line = some cut then cut + 1
    else cut

/-- A cut inside a tag is moved before the tag, unless the text starts with it. -/
def outsideTag (text : List Char) (cut : Nat) : Nat :=
  match rfind "<".toList text cut with
  | none => cut
  | some angle =>
    if (findChar '>' text angle cut).isNone && decide (angle > 0) then angle else cut

/-- Where a text that is too long is cut. -/
def cutPoint (text : List Char) (limit : Nat) : Nat :=
  let chosen := (preferredCut text limit).or (rfind " ".toList text limit)
  outsideTag text (if chosen.getD 0 = 0 then limit else chosen.getD 0)

/-- One round of the loop: the chunk and the rest. -/
def splitRound (word : WordChars) (text : List Char) (limit : Nat) : List Char × List Char :=
  let cut := cutPoint text limit
  let stack := openTags word (text.take cut)
  let remaining := lstrip (text.drop cut)
  let next := if remaining = [] then [] else openingText stack ++ remaining
  -- A round that consumes nothing is cut at the limit, and its tags stay as they are.
  if cut = 0 ∨ next = text ∨ next.length ≥ text.length then
    (text.take limit, lstrip (text.drop limit))
  else (text.take cut ++ closingText stack, next)

/-- The loop, with the rounds it has left. -/
def splitLoop (word : WordChars) (limit : Nat) : Nat → List Char → List (List Char)
  | 0, _ => []
  | guard + 1, text =>
    if text = [] then []
    else if text.length ≤ limit then [text]
    else (splitRound word text limit).1 ::
      splitLoop word limit guard (splitRound word text limit).2

/-- `split_text_safe`. -/
def splitTextSafe (word : WordChars) (text : List Char) (maxLength : Nat) : List (List Char) :=
  if text.length ≤ maxLength then [text] else splitLoop word maxLength 200 text

/-! ## The marked split -/

/-- A character with its origin: the input, or a tag the split has added. -/
structure Mark where
  char : Char
  own : Bool
  deriving DecidableEq

def chars (text : List Mark) : List Char := text.map Mark.char

/-- The characters of the input. -/
def owned (text : List Mark) : List Char := chars (text.filter Mark.own)

/-- The whole input. -/
def input (text : List Char) : List Mark := text.map fun c => ⟨c, true⟩

/-- Characters of added tags. -/
def added (tags : List Char) : List Mark := tags.map fun c => ⟨c, false⟩

def lstripMarks (text : List Mark) : List Mark := text.dropWhile fun mark => isSpace mark.char

variable (word : WordChars)

/-- `splitRound` over marked characters. -/
def markedRound (text : List Mark) (limit : Nat) : List Mark × List Mark :=
  let cut := cutPoint (chars text) limit
  let stack := openTags word (chars (text.take cut))
  let remaining := lstripMarks (text.drop cut)
  let next := if remaining = [] then [] else added (openingText stack) ++ remaining
  if cut = 0 ∨ chars next = chars text ∨ next.length ≥ text.length then
    (text.take limit, lstripMarks (text.drop limit))
  else (text.take cut ++ added (closingText stack), next)

/-- The loop, with what is left when its rounds are over. -/
def markedLoop (limit : Nat) : Nat → List Mark → List (List Mark) × List Mark
  | 0, text => ([], text)
  | guard + 1, text =>
    if text = [] then ([], [])
    else if text.length ≤ limit then ([text], [])
    else
      let (chunk, next) := markedRound word text limit
      let (chunks, left) := markedLoop limit guard next
      (chunk :: chunks, left)

/-- `split_text_safe` over the marked input. -/
def markedSplit (text : List Char) (maxLength : Nat) : List (List Mark) × List Mark :=
  if text.length ≤ maxLength then ([input text], []) else markedLoop word maxLength 200 (input text)

@[simp] theorem chars_append (first second : List Mark) :
    chars (first ++ second) = chars first ++ chars second :=
  List.map_append

@[simp] theorem chars_added (tags : List Char) : chars (added tags) = tags := by
  simp [chars, added, Function.comp_def]

@[simp] theorem chars_input (text : List Char) : chars (input text) = text := by
  simp [chars, input, Function.comp_def]

@[simp] theorem chars_length (text : List Mark) : (chars text).length = text.length :=
  List.length_map _

@[simp] theorem chars_take (text : List Mark) (cut : Nat) :
    chars (text.take cut) = (chars text).take cut :=
  List.map_take

@[simp] theorem chars_drop (text : List Mark) (cut : Nat) :
    chars (text.drop cut) = (chars text).drop cut :=
  List.map_drop

@[simp] theorem chars_eq_nil (text : List Mark) : chars text = [] ↔ text = [] :=
  List.map_eq_nil_iff

@[simp] theorem chars_lstripMarks (text : List Mark) :
    chars (lstripMarks text) = lstrip (chars text) := by
  unfold chars lstripMarks lstrip
  rw [List.dropWhile_map]
  rfl

@[simp] theorem owned_append (first second : List Mark) :
    owned (first ++ second) = owned first ++ owned second := by
  simp [owned]

@[simp] theorem owned_added (tags : List Char) : owned (added tags) = [] := by
  simp [owned, added, chars]

@[simp] theorem owned_input (text : List Char) : owned (input text) = text := by
  simp [owned, input, chars, List.filter_map, Function.comp_def]

/-- A round over marked characters is the round over their text. -/
theorem chars_markedRound (text : List Mark) (limit : Nat) :
    chars (markedRound word text limit).1 = (splitRound word (chars text) limit).1 ∧
      chars (markedRound word text limit).2 = (splitRound word (chars text) limit).2 := by
  have next : ∀ (tags : List Char) (remaining : List Mark),
      chars (if remaining = [] then [] else added tags ++ remaining) =
        if chars remaining = [] then [] else tags ++ chars remaining := by
    intro tags remaining
    simp only [chars_eq_nil]
    split
    · rfl
    · rw [chars_append, chars_added]
  unfold markedRound splitRound
  dsimp only
  have same := next (openingText (openTags word (chars (text.take (cutPoint (chars text) limit)))))
    (lstripMarks (text.drop (cutPoint (chars text) limit)))
  generalize (if lstripMarks (text.drop (cutPoint (chars text) limit)) = [] then []
    else added (openingText (openTags word
      (chars (text.take (cutPoint (chars text) limit))))) ++
        lstripMarks (text.drop (cutPoint (chars text) limit))) = rest at same ⊢
  simp only [chars_lstripMarks, chars_take, chars_drop] at same ⊢
  rw [← same, chars_length, chars_length]
  split <;> simp

theorem chars_markedLoop (limit guard : Nat) (text : List Mark) :
    (markedLoop word limit guard text).1.map chars = splitLoop word limit guard (chars text) := by
  induction guard generalizing text with
  | zero => rfl
  | succ guard ih =>
    obtain ⟨chunk, next⟩ := chars_markedRound word text limit
    unfold markedLoop splitLoop
    simp only [chars_eq_nil, chars_length]
    split
    · rfl
    · split
      · rfl
      · rw [List.map_cons, ih, chunk, next]

/-- The marked split is the split. -/
theorem chars_markedSplit (text : List Char) (maxLength : Nat) :
    (markedSplit word text maxLength).1.map chars = splitTextSafe word text maxLength := by
  unfold markedSplit splitTextSafe
  split
  · simp
  · rw [chars_markedLoop, chars_input]

/-- A round cuts the input in two and drops blanks between the parts. -/
theorem markedRound_cuts (text : List Mark) (limit : Nat) :
    ∃ gap : List Char, (∀ c ∈ gap, isSpace c = true) ∧
      owned text = owned (markedRound word text limit).1 ++ gap ++
        owned (markedRound word text limit).2 := by
  have stripped : ∀ cut, ∃ gap : List Char, (∀ c ∈ gap, isSpace c = true) ∧
      owned text = owned (text.take cut) ++ gap ++ owned (lstripMarks (text.drop cut)) := by
    intro cut
    refine ⟨owned ((text.drop cut).takeWhile fun mark => isSpace mark.char), ?_, ?_⟩
    · intro c member
      obtain ⟨mark, kept, rfl⟩ := List.mem_map.mp member
      have front := (List.mem_filter.mp kept).1
      exact @List.mem_takeWhile_imp _ (fun mark : Mark => isSpace mark.char) _ _ front
    · rw [lstripMarks, List.append_assoc, ← owned_append, List.takeWhile_append_dropWhile,
        ← owned_append, List.take_append_drop]
  have reopened : ∀ (tags : List Char) (remaining : List Mark),
      owned (if remaining = [] then [] else added tags ++ remaining) = owned remaining := by
    intro tags remaining
    split
    · next nothing => rw [nothing]
    · rw [owned_append, owned_added, List.nil_append]
  unfold markedRound
  dsimp only
  have same := reopened
    (openingText (openTags word (chars (text.take (cutPoint (chars text) limit)))))
    (lstripMarks (text.drop (cutPoint (chars text) limit)))
  generalize (if lstripMarks (text.drop (cutPoint (chars text) limit)) = [] then []
    else added (openingText (openTags word
      (chars (text.take (cutPoint (chars text) limit))))) ++
        lstripMarks (text.drop (cutPoint (chars text) limit))) = rest at same ⊢
  split
  · exact stripped limit
  · obtain ⟨gap, blank, parts⟩ := stripped (cutPoint (chars text) limit)
    refine ⟨gap, blank, ?_⟩
    rw [owned_append, owned_added, List.append_nil, same, parts]

theorem markedLoop_pieces (limit guard : Nat) (text : List Mark) :
    Pieces isSpace (owned text) ((markedLoop word limit guard text).1.map owned)
      (owned (markedLoop word limit guard text).2) := by
  induction guard generalizing text with
  | zero => exact .done _
  | succ guard ih =>
    unfold markedLoop
    split
    · next nothing =>
        rw [nothing]
        exact .done _
    · split
      · exact Pieces.whole (owned text)
      · obtain ⟨gap, blank, parts⟩ := markedRound_cuts word text limit
        rw [parts]
        exact .cut _ gap blank (ih _)

/-- Something is left only when all rounds are used. -/
theorem markedLoop_left (limit guard : Nat) (text : List Mark) :
    (markedLoop word limit guard text).2 = [] ∨
      (markedLoop word limit guard text).1.length = guard := by
  induction guard generalizing text with
  | zero => exact .inr rfl
  | succ guard ih =>
    unfold markedLoop
    split
    · exact .inl rfl
    · split
      · exact .inl rfl
      · exact (ih _).imp_right fun full => congrArg (· + 1) full

/--
The chunks are the chunks of the marked split.  Without the characters of the
added tags they are the text in its order but for blanks at the cuts, and
nothing is left behind the last one unless two hundred chunks are returned.
-/
theorem split_keeps (text : List Char) (maxLength : Nat) :
    (markedSplit word text maxLength).1.map chars = splitTextSafe word text maxLength ∧
      Pieces isSpace text ((markedSplit word text maxLength).1.map owned)
        (owned (markedSplit word text maxLength).2) ∧
      ((markedSplit word text maxLength).2 = [] ∨
        (splitTextSafe word text maxLength).length = 200) := by
  refine ⟨chars_markedSplit word text maxLength, ?_, ?_⟩
  · unfold markedSplit
    split
    · rw [List.map_cons, List.map_nil, owned_input]
      exact Pieces.whole text
    · have cuts := markedLoop_pieces word maxLength 200 (input text)
      rwa [owned_input] at cuts
  · rw [← chars_markedSplit, List.length_map]
    unfold markedSplit
    split
    · exact .inl rfl
    · exact markedLoop_left word maxLength 200 (input text)

/-- Without the characters of the added tags the chunks are the whole text. -/
def Complete (text : List Char) (maxLength : Nat) : Prop :=
  Pieces isSpace text ((markedSplit word text maxLength).1.map owned) []

def asciiWord : WordChars := fun c => c.isAlphanum || c == '_'

/-- The two hundred rounds are over before a text of two hundred and one chunks is. -/
theorem split_leaves : ¬ Complete asciiWord (List.replicate 201 'a') 1 := by
  intro cuts
  have lengths := congrArg List.length cuts.joined
  revert lengths
  decide +kernel

end BobbyBotique.Delivery
