import BobbyBotique.Foundation.Locking
import BobbyBotique.Foundation.Text

/-!
# The words of the daily crocodile

A transaction locks the tables, reads the words in use again and only then
settles a word, whatever the model proposed before.  So no two puzzles of the
last year or of the days to come have the same word.
-/

namespace BobbyBotique.Daily

/-- A word as a text. -/
abbrev Word := List Char

/-- The letters of `[а-яё]`. -/
def isWordLetter (c : Char) : Bool := decide ('а' ≤ c ∧ c ≤ 'я') || c == 'ё'

def isWordSeparator (c : Char) : Bool := c == ' ' || c == '-'

/-- `str.lower`, which keeps small letters and separators. -/
structure LowerCase where
  lower : List Char → List Char
  keeps : ∀ text, (∀ c ∈ text, isWordLetter c = true ∨ isWordSeparator c = true) → lower text = text

/-- `normalize_daily_word`. -/
def normalizeDailyWord (case : LowerCase) (word : Word) : Word :=
  joinWords (splitWords (case.lower (strip word)))

/-- The full match of `[а-яё]+(?:[ -][а-яё]+)*`; the flag tells whether a letter came last. -/
def wordMatches (lettered : Bool) : Word → Bool
  | [] => lettered
  | c :: rest =>
    if isWordLetter c then wordMatches true rest
    else lettered && isWordSeparator c && wordMatches false rest

/-- `word.replace("ё", "е")`. -/
def foldYo (word : Word) : Word := word.map fun c => if c = 'ё' then 'е' else c

/-- An answer of the model in `generate_daily_word`, beside the words it was told to avoid. -/
structure Proposal where
  value : List Char
  usedWords : List Word

/-- The word that `generate_daily_word` accepts. -/
def Proposal.word (case : LowerCase) (proposal : Proposal) : Option Word :=
  let word := joinWords (splitWords (case.lower proposal.value))
  let excluded := proposal.usedWords.map fun item =>
    foldYo (joinWords (splitWords (case.lower item)))
  if 2 ≤ word.length ∧ word.length ≤ 50 ∧ (splitWords word).length ≤ 3 ∧
      wordMatches false word = true ∧ excluded.contains (foldYo word) = false
    then some word else none

theorem wordMatches_letters {lettered : Bool} {word : Word}
    (fits : wordMatches lettered word = true) :
    ∀ c ∈ word, isWordLetter c = true ∨ isWordSeparator c = true := by
  induction word generalizing lettered with
  | nil => exact fun c member => nomatch member
  | cons first rest ih =>
    rw [wordMatches] at fits
    split at fits
    · next letter =>
        rintro c (_ | ⟨_, member⟩)
        · exact .inl letter
        · exact ih fits c member
    · simp only [Bool.and_eq_true] at fits
      rintro c (_ | ⟨_, member⟩)
      · exact .inr fits.1.2
      · exact ih fits.2 c member

theorem isSpace_of_isWordLetter {c : Char} (letter : isWordLetter c = true) :
    isSpace c = false := by
  have range : 1072 ≤ c.toNat ∧ c.toNat ≤ 1105 := by
    simp only [isWordLetter, Bool.or_eq_true, decide_eq_true_eq, beq_iff_eq] at letter
    rcases letter with ⟨low, high⟩ | rfl
    · have first : ('а').toNat ≤ c.toNat := low
      have last : c.toNat ≤ ('я').toNat := high
      exact ⟨first, last.trans (by decide)⟩
    · decide
  have first : decide (9 ≤ c.toNat ∧ c.toNat ≤ 13) = false := decide_eq_false (by omega)
  have second : decide (28 ≤ c.toNat ∧ c.toNat ≤ 32) = false := decide_eq_false (by omega)
  have third : [133, 160, 5760, 8232, 8233, 8239, 8287, 12288].contains c.toNat = false := by
    simp
    omega
  have fourth : decide (8192 ≤ c.toNat ∧ c.toNat ≤ 8202) = false := decide_eq_false (by omega)
  rw [isSpace, first, second, third, fourth]
  rfl

/-- An accepted word is not blank. -/
theorem Proposal.word_normalized {case : LowerCase} {proposal : Proposal} {word : Word}
    (accepted : proposal.word case = some word) : normalizeDailyWord case word ≠ [] := by
  dsimp only [Proposal.word] at accepted
  split at accepted
  · next fits =>
      cases accepted
      have pattern := fits.2.2.2.1
      generalize joinWords (splitWords (case.lower proposal.value)) = word at pattern ⊢
      have letters := wordMatches_letters pattern
      have kept : case.lower (strip word) = strip word :=
        case.keeps _ fun c member => letters c (strip_subset member)
      rw [normalizeDailyWord, kept]
      cases word with
      | nil => cases pattern
      | cons first rest =>
        rw [wordMatches] at pattern
        split at pattern
        · next letter =>
            have visible := isSpace_of_isWordLetter letter
            exact joinWords_splitWords_ne_nil visible (mem_strip visible List.mem_cons_self)
        · cases pattern
  · cases accepted

/-! ## The word bank -/

inductive Difficulty where
  | easy
  | hard
  deriving DecidableEq

inductive Band where
  | easy
  | medium
  | hard
  deriving DecidableEq

/-- The entries of `describe_word_bank_entry` that the choice of a word reads. -/
structure WordEntry where
  difficultyBand : Band
  rare : Bool

/-- `WORD_BANK["ru"]` with its topics in their order; every word has a letter. -/
structure WordBank (case : LowerCase) where
  topics : List String
  words : String → List Word
  describe : Word → WordEntry
  /-- `resolve_topic` on a topic. -/
  resolve : String → String
  lettered : ∀ topic, ∀ word ∈ words topic, normalizeDailyWord case word ≠ []

/-- The order of `(len(item.replace(" ", "")), item)`. -/
def shorter (first second : Word) : Bool :=
  let width (word : Word) := (word.filter fun c => c != ' ').length
  decide (width first < width second) || (width first == width second && !decide (second < first))

/-- The first half of a list, at least one word. -/
def firstHalf (words : List Word) : List Word := words.take (max 1 (words.length / 2))

/-- `_filter_words_by_difficulty`. -/
def filterWordsByDifficulty (describe : Word → WordEntry) (words : List Word) :
    Difficulty → List Word
  | .easy =>
    let common := words.filter fun word =>
      (describe word).difficultyBand == .easy && !(describe word).rare
    let broad := words.filter fun word => (describe word).difficultyBand != .hard
    if common ≠ [] then common
    else if broad ≠ [] then broad
    else firstHalf (words.mergeSort shorter)
  | .hard =>
    let filtered := words.filter fun word =>
      (describe word).difficultyBand == .hard || (describe word).rare
    if filtered ≠ [] then filtered
    else firstHalf (words.mergeSort fun first second => shorter second first)

theorem filterWordsByDifficulty_subset (describe : Word → WordEntry) (words : List Word)
    (difficulty : Difficulty) {word : Word}
    (member : word ∈ filterWordsByDifficulty describe words difficulty) : word ∈ words := by
  cases difficulty with
  | easy =>
    dsimp only [filterWordsByDifficulty] at member
    split at member
    · exact (List.mem_filter.mp member).1
    · split at member
      · exact (List.mem_filter.mp member).1
      · exact List.mem_mergeSort.mp (List.mem_of_mem_take member)
  | hard =>
    dsimp only [filterWordsByDifficulty] at member
    split at member
    · exact (List.mem_filter.mp member).1
    · exact List.mem_mergeSort.mp (List.mem_of_mem_take member)

/-! ## The choice of a word -/

variable {case : LowerCase} (bank : WordBank case)

/-- The words of a topic for a difficulty that are not in use. -/
def unusedWords (usedWords : List Word) (difficulty : Difficulty) (topic : String) : List Word :=
  (filterWordsByDifficulty bank.describe (bank.words topic) difficulty).filter fun word =>
    !usedWords.contains (normalizeDailyWord case word)

/-- The first topic of the day's rotation that has an unused word, else the day's own topic. -/
def chooseTopic (usedWords : List Word) (puzzleDate : Nat) (difficulty : Difficulty) : String :=
  let count := bank.topics.length
  let offset := match difficulty with
    | .easy => 0
    | .hard => count / 2
  let candidates := (List.range count).map fun i =>
    bank.topics.getD ((puzzleDate + offset + i) % count) ""
  (candidates.find? fun topic => unusedWords bank usedWords difficulty topic != []).getD
    (candidates.headD "")

/-- `_pick_local_daily_word`; the cursor is where the rotation of the topic stands. -/
def pickLocalDailyWord (usedWords : List Word) (difficulty : Difficulty) (topic : String)
    (cursor : Nat) : Option Word :=
  let words := unusedWords bank usedWords difficulty topic
  words[cursor % words.length]?

/-- The candidate while its word is not in use, else a word of the bank; nothing when not ready. -/
def chooseWord (usedWords : List Word) (puzzleDate : Nat) (difficulty : Difficulty)
    (candidate : Option Word) (cursor : Nat) : Option Word :=
  match candidate.filter fun word => !usedWords.contains (normalizeDailyWord case word) with
  | some word => some word
  | none =>
    pickLocalDailyWord bank usedWords difficulty
      (bank.resolve (chooseTopic bank usedWords puzzleDate difficulty)) cursor

variable {bank}

/-- A chosen word is new and has letters. -/
theorem chooseWord_fresh {usedWords : List Word} {puzzleDate : Nat} {difficulty : Difficulty}
    {candidate : Option Proposal} {cursor : Nat} {word : Word}
    (chosen : chooseWord bank usedWords puzzleDate difficulty
      (candidate.bind (Proposal.word case)) cursor = some word) :
    normalizeDailyWord case word ∉ usedWords ∧ normalizeDailyWord case word ≠ [] := by
  dsimp only [chooseWord] at chosen
  split at chosen
  · next accepted fits =>
      cases chosen
      obtain ⟨proposed, unused⟩ := Option.filter_eq_some_iff.mp fits
      obtain ⟨proposal, _, answer⟩ := Option.bind_eq_some_iff.mp proposed
      rw [Bool.not_eq_true', List.contains_eq_mem, decide_eq_false_iff_not] at unused
      exact ⟨unused, Proposal.word_normalized answer⟩
  · have member := List.mem_of_getElem? chosen
    obtain ⟨fitting, unused⟩ := List.mem_filter.mp member
    rw [Bool.not_eq_true', List.contains_eq_mem, decide_eq_false_iff_not] at unused
    exact ⟨unused, bank.lettered _ word (filterWordsByDifficulty_subset _ _ _ fitting)⟩

/-! ## The transactions -/

/-- The fields of a row of `crocodile_daily_puzzles` that settling its word reads and writes. -/
structure WordRow where
  targetWord : Word
  contentRevision : Nat

abbrev WordStore := Dict (Nat × Difficulty) WordRow

/-- `get_used_daily_words`. -/
def getUsedDailyWords (case : LowerCase) (store : WordStore) (currentDate : Nat) : List Word :=
  (store.items.filterMap fun (key, row) =>
    if row.targetWord ≠ [] ∧ currentDate ≤ key.1 + 365 then
      some (normalizeDailyWord case row.targetWord) else none).filter fun word => word ≠ []

/-- The words that a puzzle must not repeat. -/
def usedWordsFor (case : LowerCase) (store : WordStore) (currentDate puzzleDate : Nat)
    (difficulty : Difficulty) : List Word :=
  getUsedDailyWords case store currentDate ++
    match difficulty with
    | .easy => []
    | .hard =>
      match store.get? (puzzleDate, .easy) with
      | some easy => [normalizeDailyWord case easy.targetWord]
      | none => []

/-- What a transaction knows before it locks the tables; it began on `currentDate`. -/
structure WordCall where
  currentDate : Nat
  puzzleDate : Nat
  difficulty : Difficulty
  candidate : Option Proposal
  cursor : Nat

inductive WordTxn where
  | create (call : WordCall)
  | regenerate (call : WordCall) (expectedRevision : Int) (played : Bool)

def WordTxn.call : WordTxn → WordCall
  | .create call => call
  | .regenerate call _ _ => call

def WordCall.key (call : WordCall) : Nat × Difficulty := (call.puzzleDate, call.difficulty)

variable (bank) in
def WordCall.choose (call : WordCall) (usedWords : List Word) : Option Word :=
  chooseWord bank usedWords call.puzzleDate call.difficulty
    (call.candidate.bind (Proposal.word case)) call.cursor

variable (bank) in
/-- The row that a transaction stores; nothing when it finds its puzzle or raises. -/
def WordTxn.row (store : WordStore) : WordTxn → Option WordRow
  | .create call =>
    match store.get? call.key with
    | some _ => none
    | none =>
      (call.choose bank (usedWordsFor case store call.currentDate call.puzzleDate
        call.difficulty)).map fun word => ⟨word, 1⟩
  | .regenerate call expected played =>
    match store.get? call.key with
    | none => none
    | some existing =>
      if expected < 1 ∨ expected ≠ existing.contentRevision ∨ played = true then none
      else
        (call.choose bank (normalizeDailyWord case existing.targetWord ::
          usedWordsFor case store call.currentDate call.puzzleDate call.difficulty)).map
            fun word => ⟨word, existing.contentRevision + 1⟩

variable (bank) in
/-- The transactions lock the tables in a mode that excludes each other. -/
def wordLocking : Locking WordStore WordTxn WordStore :=
  .exclusive fun store txn =>
    match txn.row bank store with
    | some row => store.set txn.call.key row
    | none => store

/-! ## No word twice -/

variable (case) in
/-- Two puzzles of the last 365 days or later have different words, and every word has letters. -/
structure WordsApart (store : WordStore) (today : Nat) : Prop where
  apart : ∀ key other row rival, store.get? key = some row → store.get? other = some rival →
    today ≤ key.1 + 365 → today ≤ other.1 + 365 → key ≠ other →
    normalizeDailyWord case row.targetWord ≠ normalizeDailyWord case rival.targetWord
  lettered : ∀ key row, store.get? key = some row → normalizeDailyWord case row.targetWord ≠ []

theorem normalizeDailyWord_nil (case : LowerCase) : normalizeDailyWord case [] = [] := by
  have empty : case.lower [] = [] := case.keeps [] fun c member => nomatch member
  rw [normalizeDailyWord, show strip [] = [] from rfl, empty]
  rfl

theorem mem_getUsedDailyWords {store : WordStore} {today : Nat} {key : Nat × Difficulty}
    {row : WordRow} (found : store.get? key = some row)
    (lettered : normalizeDailyWord case row.targetWord ≠ []) (recent : today ≤ key.1 + 365) :
    normalizeDailyWord case row.targetWord ∈ getUsedDailyWords case store today := by
  refine List.mem_filter.mpr ⟨List.mem_filterMap.mpr ⟨(key, row), ?_, ?_⟩, by simpa using lettered⟩
  · exact (store.mem_items_iff key row).mpr found
  · refine if_pos ⟨fun blank => lettered ?_, recent⟩
    rw [blank, normalizeDailyWord_nil]

/-- A stored word is none of those in use. -/
theorem WordTxn.row_fresh {store : WordStore} {txn : WordTxn} {row : WordRow}
    (stored : txn.row bank store = some row) :
    normalizeDailyWord case row.targetWord ∉ getUsedDailyWords case store txn.call.currentDate ∧
      normalizeDailyWord case row.targetWord ≠ [] := by
  cases txn with
  | create call =>
    dsimp only [WordTxn.row] at stored
    split at stored
    · cases stored
    · obtain ⟨word, chosen, rfl⟩ := Option.map_eq_some_iff.mp stored
      obtain ⟨unused, lettered⟩ := chooseWord_fresh chosen
      exact ⟨fun member => unused (List.mem_append_left _ member), lettered⟩
  | regenerate call expected played =>
    dsimp only [WordTxn.row] at stored
    split at stored
    · cases stored
    · split at stored
      · cases stored
      · obtain ⟨word, chosen, rfl⟩ := Option.map_eq_some_iff.mp stored
        obtain ⟨unused, lettered⟩ := chooseWord_fresh chosen
        refine ⟨fun member => unused ?_, lettered⟩
        exact List.mem_cons_of_mem _ (List.mem_append_left _ member)

theorem WordsApart.atomic {store : WordStore} {today : Nat}
    (words : WordsApart case store today) (txn : WordTxn)
    (began : txn.call.currentDate ≤ today) :
    WordsApart case ((wordLocking bank).atomic store txn) today := by
  dsimp only [Locking.atomic, wordLocking, Locking.exclusive]
  cases stored : txn.row bank store with
  | none => exact words
  | some row =>
    obtain ⟨unused, lettered⟩ := WordTxn.row_fresh stored
    -- The window of the transaction reaches back at least as far as today's.
    have differs : ∀ other rival, store.get? other = some rival → today ≤ other.1 + 365 →
        normalizeDailyWord case row.targetWord ≠ normalizeDailyWord case rival.targetWord := by
      intro other rival found recent same
      refine unused (same ▸ mem_getUsedDailyWords found (words.lettered other rival found) ?_)
      exact began.trans recent
    constructor
    · intro key other first second found met recent near ne
      rw [Dict.get?_set] at found met
      split at found <;> split at met
      · next here there => exact absurd (here.trans there.symm) ne
      · cases found
        exact differs other second met near
      · cases met
        exact (differs key first found recent).symm
      · exact words.apart key other first second found met recent near ne
    · intro key first found
      rw [Dict.get?_set] at found
      split at found
      · cases found
        exact lettered
      · exact words.lettered key first found

theorem WordsApart.run {store : WordStore} {today : Nat} (words : WordsApart case store today)
    (txns : List WordTxn) (began : ∀ txn ∈ txns, txn.call.currentDate ≤ today) :
    WordsApart case (Run.run (wordLocking bank).atomic store txns) today := by
  induction txns generalizing store with
  | nil => exact words
  | cons txn rest ih =>
    refine ih (words.atomic txn (began txn List.mem_cons_self)) fun later member => ?_
    exact began later (List.mem_cons_of_mem _ member)

theorem wordsApart_empty (today : Nat) : WordsApart case .empty today := by
  constructor
  · intro key other row rival found
    cases found
  · intro key row found
    cases found

/--
For every interleaving of transactions that create puzzles and regenerate words,
none of which began after today: the puzzles dated within the last 365 days or
later have pairwise different normalized words, and no key has two puzzles.
-/
theorem daily_words_distinct (bank : WordBank case) (labels : List (Locking.Label WordTxn))
    (today : Nat)
    (began : ∀ txn ∈ (wordLocking bank).history (Locking.initial .empty) labels,
      txn.call.currentDate ≤ today) :
    WordsApart case ((wordLocking bank).reach .empty labels).store today ∧
      ((wordLocking bank).reach .empty labels).store.keys.Nodup := by
  constructor
  · rw [Locking.reach_store]
    exact (wordsApart_empty today).run _ began
  · exact Dict.keys_nodup _

/-- Lower case letter by letter. -/
def letterwise : LowerCase where
  lower text := text.map Char.toLower
  keeps := by
    intro text small
    refine (List.map_congr_left fun c member => ?_).trans (List.map_id text)
    have above : ¬(c.val ≥ 65 ∧ c.val ≤ 90) := by
      rintro ⟨_, low⟩
      rcases small c member with letter | separator
      · simp only [isWordLetter, Bool.or_eq_true, decide_eq_true_eq, beq_iff_eq] at letter
        rcases letter with ⟨high, _⟩ | rfl
        · have start : (1072 : UInt32) ≤ c.val := high
          exact absurd (UInt32.le_trans start low) (by decide)
        · exact absurd low (by decide)
      · simp only [isWordSeparator, Bool.or_eq_true, beq_iff_eq] at separator
        rcases separator with rfl | rfl <;> contradiction
    unfold Char.toLower
    exact dif_neg above

/-- A bank with one topic of two words. -/
def smallBank : WordBank letterwise where
  topics := ["Животные"]
  words _ := ["крокодил".toList, "жираф".toList]
  describe _ := ⟨.easy, false⟩
  resolve topic := topic
  lettered := fun _ => forall_mem_of_all (by decide +kernel)

/-- The easy and the hard puzzle of a day, both with the same proposal. -/
def twoPuzzles : List (Locking.Label WordTxn) :=
  let call (difficulty : Difficulty) : WordCall :=
    ⟨1000, 1001, difficulty, some ⟨"жираф".toList, []⟩, 0⟩
  [.acquire 0 (.create (call .easy)), .look 0, .commit 0,
    .acquire 1 (.create (call .hard)), .look 1, .commit 1]

theorem twoPuzzles_distinct :
    WordsApart letterwise ((wordLocking smallBank).reach .empty twoPuzzles).store 1001 ∧
      ((wordLocking smallBank).reach .empty twoPuzzles).store.keys.Nodup :=
  daily_words_distinct smallBank twoPuzzles 1001 (forall_mem_of_all (by decide +kernel))

end BobbyBotique.Daily
