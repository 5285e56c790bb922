import BobbyBotique.Daily.Bank
import BobbyBotique.Settings.Document

/-!
# The shuffled options of a question

The options that the model wrote are trimmed, the blank ones are dropped, and four that
are left are shuffled.  The raw index of the right answer is read off the options that are
left, and its new index is found again by its text.
-/

namespace BobbyBotique.Daily

open Settings (Json Values get)

/-- What the language and the normalizer of facts say of values. -/
structure Reading where
  /-- `str` of a value that is no text. -/
  repr : Json → List Char
  /-- `int` of a text, which may raise. -/
  intOf : String → Option Int
  /-- `FactIdentity.create`. -/
  create : List Char → List Char → List Char → FactIdentity

/-- `random.shuffle`, at one of its calls. -/
structure Shuffle where
  apply : List (List Char) → List (List Char)
  perm : ∀ options, (apply options).Perm options

structure ShuffledQuestion extends AuthoredQuestion where
  id : Nat

/-- Truth of a value. -/
def truthy : Json → Bool
  | .null => false
  | .bool value => value
  | .int value => value != 0
  | .float _ size => size != some 0
  | .str text => text != ""
  | .arr items => !items.isEmpty
  | .obj fields => !fields.isEmpty

/-- What a loop over a value goes through, where it is no error. -/
def iterate : Json → Option (List Json)
  | .arr items => some items
  | .obj fields => some (fields.map fun field => .str field.1)
  | .str text => some (text.toList.map fun c => .str (String.singleton c))
  | _ => none

namespace Reading

variable (reading : Reading)

/-- `str(value)`. -/
def str : Json → List Char
  | .str text => text.toList
  | value => reading.repr value

/-- `int(value)`, which drops the fraction of a finite float. -/
def int : Json → Option Int
  | .int value => some value
  | .bool value => some (if value then 1 else 0)
  | .float negative (some size) => some (if negative then -size.floor else size.floor)
  | .str text => reading.intOf text
  | _ => none

/-- `str(value).strip()`. -/
def trimmed (value : Json) : List Char := strip (reading.str value)

/-- `str(fields.get(name, default)).strip()`. -/
def field (fields : Values) (name default : String) : List Char :=
  reading.trimmed ((get fields name).getD (.str default))

/-- `fields.get(name) or fields.get(other)`. -/
def either (fields : Values) (name other : String) : Json :=
  match get fields name with
  | some value => if truthy value then value else (get fields other).getD .null
  | none => (get fields other).getD .null

/-- `str(value or default).strip()`. -/
def texted (value : Json) (default : List Char) : List Char :=
  if truthy value then reading.trimmed value else strip default

def options (fields : Values) : Option (List Json) :=
  iterate ((get fields "options").getD (.arr []))

def keptOptions (options : List Json) : List (List Char) :=
  (options.map reading.trimmed).filter fun option => decide (option ≠ [])

/-- The raw index, or the first one where it is out of range. -/
def inRange (raw : Int) (options : List (List Char)) : Nat :=
  if raw < 0 ∨ options.length ≤ raw then 0 else raw.toNat

def identity (fields : Values) (correctText : List Char) : Option FactIdentity :=
  match either fields "key" "identity" with
  | .obj key =>
    let subject := reading.texted (either key "subject" "object") []
    let relation := reading.texted (either key "relation" "subobject") []
    let answer := reading.texted ((get key "answer").getD .null) correctText
    if subject ≠ [] ∧ relation ≠ [] ∧ answer ≠ [] then
      some (reading.create subject relation answer)
    else none
  | _ => none

/-- One turn of the loop: it may raise, pass the item by, or keep it. -/
def shuffleItem (shuffle : Shuffle) (idx : Nat) : Json → Option (Option ShuffledQuestion)
  | .obj fields => do
      let options := reading.keptOptions (← options fields)
      if options.length ≠ 4 ∨ reading.field fields "question" "" = [] then return none
      let raw ← reading.int ((get fields "correct_index").getD (.int 0))
      let correctText ← options[inRange raw options]?
      let shuffled := shuffle.apply options
      let place ← shuffled.idxOf? correctText
      return some {
        id := idx + 1
        topic := String.ofList (reading.field fields "topic" "Общие знания")
        question := reading.field fields "question" ""
        options := shuffled
        correctIndex := place
        explanation := String.ofList (reading.field fields "explanation" "")
        identity := reading.identity fields correctText }
  | _ => none

/-- `shuffle_options_and_update_correct_index`, from the item at `idx` on. -/
def shuffleOptions (shuffles : Nat → Shuffle) (idx : Nat) :
    List Json → Option (List ShuffledQuestion)
  | [] => some []
  | raw :: rest => do
      let question ← reading.shuffleItem (shuffles idx) idx raw
      let questions ← shuffleOptions shuffles (idx + 1) rest
      return question.toList ++ questions

/-- An item with these raw options and a valid index into them. -/
def Indexed (raw : Json) (options : List Json) (index : Nat) : Prop :=
  ∃ fields, raw = .obj fields ∧ Reading.options fields = some options ∧
    (get fields "correct_index").bind reading.int = some (index : Int) ∧ index < options.length

variable {reading} in
theorem Indexed.unique {raw : Json} {options others : List Json} {index other : Nat}
    (indexed : reading.Indexed raw options index) (again : reading.Indexed raw others other) :
    options = others ∧ index = other := by
  obtain ⟨fields, rfl, listed, numbered, -⟩ := indexed
  obtain ⟨_, same, listed', numbered', -⟩ := again
  cases same
  rw [listed] at listed'
  rw [numbered] at numbered'
  exact ⟨Option.some.inj listed', Int.ofNat_inj.mp (Option.some.inj numbered')⟩

/-- What a question keeps of its item. -/
structure Keeps (options : List Json) (index : Nat) (question : ShuffledQuestion) : Prop where
  permuted : question.options.Perm (reading.keptOptions options)
  right : (∀ option ∈ options.take (index + 1), reading.trimmed option ≠ []) →
    0 ≤ question.correctIndex ∧ question.options[question.correctIndex.toNat]? =
      options[index]?.map reading.trimmed

variable {reading}

/-- Dropping blanks behind a place moves nothing before it. -/
theorem keptOptions_getElem? {options : List Json} {index : Nat} (valid : index < options.length)
    (visible : ∀ option ∈ options.take (index + 1), reading.trimmed option ≠ []) :
    (reading.keptOptions options)[index]? = options[index]?.map reading.trimmed := by
  have front : reading.keptOptions (options.take (index + 1)) =
      (options.take (index + 1)).map reading.trimmed := by
    refine List.filter_eq_self.mpr fun option member => decide_eq_true ?_
    obtain ⟨raw, inside, rfl⟩ := List.mem_map.mp member
    exact visible raw inside
  have split : reading.keptOptions options = (options.take (index + 1)).map reading.trimmed ++
        reading.keptOptions (options.drop (index + 1)) := by
    rw [← front, keptOptions, keptOptions, keptOptions, ← List.filter_append, ← List.map_append,
      List.take_append_drop]
  have within : index < ((options.take (index + 1)).map reading.trimmed).length := by
    simp only [List.length_map, List.length_take]
    omega
  rw [split, List.getElem?_append_left within, List.getElem?_map, List.getElem?_take,
    if_pos (Nat.lt_succ_self index)]

theorem inRange_valid {options : List (List Char)} {index : Nat} {text : List Char}
    (found : options[index]? = some text) : inRange index options = index := by
  obtain ⟨within, -⟩ := List.getElem?_eq_some_iff.mp found
  rw [inRange, if_neg (by omega), Int.toNat_natCast]

theorem inRange_lt {options : List (List Char)} (filled : options.length = 4) (raw : Int) :
    inRange raw options < options.length := by
  unfold inRange
  split <;> omega

/-- An indexed item is passed by, or kept as its question. -/
theorem shuffleItem_spec {raw : Json} {options : List Json} {index : Nat}
    (indexed : reading.Indexed raw options index) (shuffle : Shuffle) (idx : Nat) :
    reading.shuffleItem shuffle idx raw = some none ∨
      ∃ question, reading.shuffleItem shuffle idx raw = some (some question) ∧
        question.id = idx + 1 ∧ reading.Keeps options index question := by
  obtain ⟨fields, rfl, listed, read, valid⟩ := indexed
  obtain ⟨value, stored, number⟩ := Option.bind_eq_some_iff.mp read
  simp only [shuffleItem, listed, stored, number, Option.getD_some, Option.bind_eq_bind,
    Option.bind_some]
  by_cases passed : (reading.keptOptions options).length ≠ 4 ∨
      reading.field fields "question" "" = []
  · exact .inl (if_pos passed)
  · rw [if_neg passed]
    have four : (reading.keptOptions options).length = 4 := by
      by_contra other
      exact passed (.inl other)
    obtain ⟨correctText, correct⟩ : ∃ text,
        (reading.keptOptions options)[inRange index (reading.keptOptions options)]? = some text :=
      ⟨_, List.getElem?_eq_getElem (inRange_lt four _)⟩
    have shuffled := shuffle.perm (reading.keptOptions options)
    have member : correctText ∈ shuffle.apply (reading.keptOptions options) :=
      shuffled.mem_iff.mpr (List.mem_of_getElem? correct)
    obtain ⟨place, found⟩ : ∃ place,
        (shuffle.apply (reading.keptOptions options)).idxOf? correctText = some place := by
      refine Option.isSome_iff_exists.mp ?_
      rw [List.isSome_idxOf?]
      exact member
    simp only [correct, found, Option.bind_some]
    refine .inr ⟨_, rfl, rfl, shuffled, fun visible => ⟨Int.natCast_nonneg place, ?_⟩⟩
    have kept := keptOptions_getElem? valid visible
    rw [List.getElem?_eq_getElem valid, Option.map_some] at kept
    rw [inRange_valid kept, kept] at correct
    obtain ⟨within, here, -⟩ := List.idxOf?_eq_some_iff.mp found
    rw [List.getElem?_eq_getElem valid, Option.map_some, correct, Int.toNat_natCast,
      List.getElem?_eq_getElem within, here]

/-- No item of an indexed list raises, and every question that is kept keeps its item. -/
theorem shuffleOptions_spec (shuffles : Nat → Shuffle) (raws : List Json) (idx : Nat)
    (indexed : ∀ raw ∈ raws, ∃ options index, reading.Indexed raw options index) :
    ∃ questions, reading.shuffleOptions shuffles idx raws = some questions ∧
      ∀ question ∈ questions, ∃ place raw options index, question.id = idx + place + 1 ∧
        raws[place]? = some raw ∧ reading.Indexed raw options index ∧
          reading.Keeps options index question := by
  induction raws generalizing idx with
  | nil => exact ⟨[], rfl, nofun⟩
  | cons raw rest ih =>
    obtain ⟨options, index, known⟩ := indexed raw List.mem_cons_self
    obtain ⟨later, ran, kept⟩ := ih (idx + 1) fun raw member =>
      indexed raw (List.mem_cons_of_mem _ member)
    have behind : ∀ question ∈ later, ∃ place raw' options index,
        question.id = idx + place + 1 ∧ (raw :: rest)[place]? = some raw' ∧
          reading.Indexed raw' options index ∧ reading.Keeps options index question := by
      intro question member
      obtain ⟨place, raw', options, index, id, found, known, keeps⟩ := kept question member
      exact ⟨place + 1, raw', options, index, by omega, found, known, keeps⟩
    rcases shuffleItem_spec known (shuffles idx) idx with passed | ⟨question, made, id, keeps⟩
    · refine ⟨later, ?_, behind⟩
      simp [shuffleOptions, passed, ran]
    · refine ⟨question :: later, by simp [shuffleOptions, made, ran], ?_⟩
      intro other member
      rcases List.mem_cons.mp member with rfl | member
      · exact ⟨0, raw, options, index, id, rfl, known, keeps⟩
      · exact behind other member

end Reading

/--
For every list of items with valid indices and every way to shuffle: the options of each
question are a permutation of the trimmed raw options that are not blank, and where no raw
option up to the right one is blank, the option at its new index is the right one.
-/
theorem shuffle_keeps_answer (reading : Reading) (shuffles : Nat → Shuffle) (raws : List Json)
    (indexed : ∀ raw ∈ raws, ∃ options index, reading.Indexed raw options index) :
    ∃ questions, reading.shuffleOptions shuffles 0 raws = some questions ∧
      ∀ question ∈ questions, ∃ place raw options index, question.id = place + 1 ∧
        raws[place]? = some raw ∧ reading.Indexed raw options index ∧
          reading.Keeps options index question := by
  obtain ⟨questions, ran, kept⟩ := Reading.shuffleOptions_spec shuffles raws 0 indexed
  refine ⟨questions, ran, fun question member => ?_⟩
  obtain ⟨place, rest⟩ := kept question member
  rw [Nat.zero_add] at rest
  exact ⟨place, rest⟩

/-- A shuffle that moves nothing. -/
def Shuffle.still : Shuffle := ⟨id, fun _ => .refl _⟩

/-- A reading of values that are texts and numbers. -/
def Reading.plain : Reading where
  repr := fun _ => []
  intOf := fun _ => none
  create := fun _ _ _ => ⟨"", "", "", ""⟩

def sampleItem (options : List String) (index : Int) : Json :=
  .obj [("question", .str "?"), ("options", .arr (options.map .str)), ("correct_index", .int index)]

theorem sampleItem_indexed (options : List String) {index : Nat} (valid : index < options.length) :
    Reading.plain.Indexed (sampleItem options index) (options.map .str) index :=
  ⟨_, rfl, rfl, rfl, by rwa [List.length_map]⟩

theorem shuffle_keeps_answer_four :
    ∃ questions, Reading.plain.shuffleOptions (fun _ => .still) 0
        [sampleItem ["a", " b", "c", "d"] 1] = some questions ∧
      ∀ question ∈ questions, ∃ place raw options index, question.id = place + 1 ∧
        [sampleItem ["a", " b", "c", "d"] 1][place]? = some raw ∧
          Reading.plain.Indexed raw options index ∧
            Reading.plain.Keeps options index question :=
  shuffle_keeps_answer Reading.plain (fun _ => .still) [sampleItem ["a", " b", "c", "d"] 1]
    fun raw member => ⟨_, 1, List.mem_singleton.mp member ▸
      sampleItem_indexed ["a", " b", "c", "d"] (by decide)⟩

/-- A blank option before the right one, and the next option passes for the right one. -/
theorem blank_moves_answer : ¬ ∀ (reading : Reading) (shuffles : Nat → Shuffle)
    (raws : List Json) (questions : List ShuffledQuestion),
    (∀ raw ∈ raws, ∃ options index, reading.Indexed raw options index) →
      reading.shuffleOptions shuffles 0 raws = some questions →
      ∀ question ∈ questions, ∃ place raw options index, question.id = place + 1 ∧
        raws[place]? = some raw ∧ reading.Indexed raw options index ∧
          question.options.Perm (options.map reading.trimmed) ∧
            question.options[question.correctIndex.toNat]? =
              options[index]?.map reading.trimmed := by
  intro claimed
  have made : ∃ question, Reading.plain.shuffleOptions (fun _ => .still) 0
      [sampleItem ["", "a", "b", "c", "d"] 1] = some [question] ∧
        question.options[question.correctIndex.toNat]? = some ['b'] :=
    ⟨_, rfl, rfl⟩
  obtain ⟨question, ran, moved⟩ := made
  have known := sampleItem_indexed ["", "a", "b", "c", "d"] (show 1 < _ by decide)
  obtain ⟨place, raw, options, index, -, found, indexed, -, right⟩ :=
    claimed _ _ _ _ (fun raw member => ⟨_, 1, List.mem_singleton.mp member ▸ known⟩) ran question
      List.mem_cons_self
  have same := List.mem_singleton.mp (List.mem_of_getElem? found)
  rw [same] at indexed
  obtain ⟨listed, numbered⟩ := indexed.unique known
  rw [moved, listed, numbered] at right
  exact absurd right (by decide)

end BobbyBotique.Daily
