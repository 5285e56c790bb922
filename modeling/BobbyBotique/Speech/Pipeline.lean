import BobbyBotique.Speech.Planning
import Mathlib.Data.List.MinMax

/-!
# Speaking a text piece by piece

`_run_gemini_pipeline` with `_generate_single_chunk_gemini`, the checks and the plan of
`generate_speech`, and `bisect_speech_text`.  What each key answers is any answer; the
pieces of a text that is too long stand in front of the texts behind it.
-/

namespace BobbyBotique.Speech

def maxAdaptiveSplits : Nat := 16

def maxAdaptiveDepth : Nat := 4

def minAdaptiveBytes : Nat := 32

def maxTtsSourceBytes : Nat := 64 * 1024

def maxTtsAudioBytes : Nat := 32 * 1024 * 1024

/-- `TTSContractError`, which a `SpeechInputSplitRequired` brings its pieces with. -/
structure TTSContractError where
  reason : String
  pieces : Option (List Text)

/-- The contract errors that a text cut finer may not meet. -/
def adaptiveReasons : List String :=
  ["incomplete_audio", "output_token_limit", "input_too_large", "output_budget_exceeded"]

/-- What a key answers: an error that another key is tried after, audio, or a contract error. -/
inductive Answer where
  | rejected
  | audio (pcm : List UInt8)
  | contract (reason : String)

/-- How a call ends; audio without bytes stands for `None`. -/
inductive Spoken where
  | rejected
  | audio (pcm : List UInt8)
  | failed (error : TTSContractError)

/-- `transcript.strip()` is not empty. -/
def hasSpeech (text : Text) : Bool := strip text != []

/-- `bisect_speech_text`: the first boundary that is nearest to the middle. -/
def bisectSpeechText (text : Text) : Option (List Text) :=
  match (speechTextBoundaries text).argmin
      fun stop : Nat => (2 * (stop : Int) - text.length).natAbs with
  | none => none
  | some middle =>
    if hasSpeech (text.take middle) && hasSpeech (text.drop middle) then
      some [text.take middle, text.drop middle]
    else none

section

variable (counter : Counter) (prepared : SpeechSettings)

/-- `generate_speech` with one key. -/
def generateSpeech (text : Text) (answer : Answer) (state : Counting) : Spoken × Counting :=
  if text = [] then (.audio [], state)
  else if maxTtsSourceBytes < (Utf8.encode text).length then
    (.failed ⟨"input_too_large", none⟩, state)
  else if !hasSpeech text then (.audio [], state)
  else
    match counter.planSpeechChunks prepared text state with
    | (.error error, state) => (.failed ⟨error.reason, none⟩, state)
    | (.ok pieces, state) =>
      if 1 < pieces.length then (.failed ⟨"input_too_large", some pieces⟩, state)
      else
        match answer with
        | .rejected => (.rejected, state)
        | .audio pcm => (.audio pcm, state)
        | .contract reason => (.failed ⟨reason, none⟩, state)

/-- `_generate_single_chunk_gemini`: the keys one after another, until none is left. -/
def generateChunk (text : Text) :
    List Answer → Counting → Except TTSContractError (List UInt8) × Counting
  | [], state => (.ok [], state)
  | answer :: rest, state =>
    match generateSpeech counter prepared text answer state with
    | (.rejected, state) => generateChunk text rest state
    | (.audio pcm, state) => (.ok pcm, state)
    | (.failed error, state) =>
      if error.reason ∈ adaptiveReasons then (.error error, state) else (.ok [], state)

/-- The pieces that take the place of a text, unless the pipeline gives up. -/
def recovery (text : Text) (depth subdivisions : Nat) (error : TTSContractError) :
    Option (List Text) :=
  let cut := match error.pieces with
    | some pieces => some pieces
    | none => bisectSpeechText text
  match cut.map fun pieces => pieces.filter hasSpeech with
  | none => none
  | some [] => none
  | some (first :: rest) =>
    if error.reason ∉ adaptiveReasons ∨ maxAdaptiveDepth ≤ depth ∨
        maxAdaptiveSplits < subdivisions + rest.length ∨
        (error.pieces = none ∧ (Utf8.encode text).length ≤ minAdaptiveBytes) then none
    else some (first :: rest)

/-- The variables of the loop; each part stands with the text it speaks. -/
structure Pipeline where
  parts : List (Text × List UInt8)
  audioSize : Nat
  subdivisions : Nat
  total : Nat
  counting : Counting
  /-- The calls of `_generate_single_chunk_gemini` so far. -/
  calls : Nat
  /-- What `on_chunk_complete` is called with. -/
  reports : List (Nat × Nat)

variable (answers : Nat → Text → List Answer)

variable {counter prepared} in
theorem recovery_cases {text : Text} {depth subdivisions : Nat} {error : TTSContractError}
    {pieces : List Text} (cut : recovery text depth subdivisions error = some pieces) :
    depth < maxAdaptiveDepth ∧ pieces ≠ [] ∧
      subdivisions + (pieces.length - 1) ≤ maxAdaptiveSplits ∧
      ∃ whole, pieces = whole.filter hasSpeech ∧
        (error.pieces = some whole ∨ error.pieces = none ∧ bisectSpeechText text = some whole) := by
  unfold recovery at cut
  dsimp only at cut
  split at cut
  · cases cut
  · cases cut
  next first rest found =>
  split at cut
  · cases cut
  next allowed =>
  cases cut
  obtain ⟨whole, source, same⟩ := Option.map_eq_some_iff.mp found
  refine ⟨by omega, List.cons_ne_nil _ _, by rw [List.length_cons]; omega, whole, same.symm, ?_⟩
  split at source
  · next given => exact .inl (given.trans source)
  · next given => exact .inr ⟨given, source⟩

namespace Pipeline

/-- The pieces of a text stand for it. -/
def subdivide (state : Pipeline) (pieces : List Text) (counting : Counting) : Pipeline :=
  { state with
    counting := counting
    calls := state.calls + 1
    subdivisions := state.subdivisions + (pieces.length - 1)
    total := state.total + (pieces.length - 1)
    reports := state.reports ++ [(state.parts.length, state.total + (pieces.length - 1))] }

/-- A text is spoken. -/
def speak (state : Pipeline) (text : Text) (pcm : List UInt8) (counting : Counting) : Pipeline :=
  { state with
    counting := counting
    calls := state.calls + 1
    parts := state.parts ++ [(text, pcm)]
    audioSize := state.audioSize + pcm.length
    reports := state.reports ++ [(state.parts.length + 1, state.total)] }

end Pipeline

/-- The pieces of a text, one level deeper. -/
def deeper (depth : Nat) (pieces : List Text) : List (Text × Nat) :=
  pieces.map fun piece => (piece, depth + 1)

/-- The loop; the pieces of a text come in front of the texts behind it. -/
def speakFrom : List (Text × Nat) → Pipeline → Option Pipeline
  | [], state => if state.parts = [] then none else some state
  | (text, depth) :: pending, state =>
    let made := generateChunk counter prepared text (answers state.calls text) state.counting
    match made.1 with
    | .error error =>
      match _cut : recovery text depth state.subdivisions error with
      | none => none
      | some pieces => speakFrom (deeper depth pieces ++ pending) (state.subdivide pieces made.2)
    | .ok pcm =>
      if pcm = [] ∨ maxTtsAudioBytes < state.audioSize + pcm.length then none
      else speakFrom pending (state.speak text pcm made.2)
-- a text weighs more than all the pieces that may take its place
termination_by pending => (pending.map fun entry => 18 ^ (5 - entry.2)).sum
decreasing_by
  · obtain ⟨shallow, _, few, _⟩ := recovery_cases _cut
    have fewer : pieces.length < 18 := by
      unfold maxAdaptiveSplits at few
      omega
    rw [List.map_append, List.sum_append, List.map_cons, List.sum_cons, deeper, List.map_map]
    refine Nat.add_lt_add_right ?_ _
    calc (pieces.map ((fun entry => 18 ^ (5 - entry.2)) ∘ fun piece => (piece, depth + 1))).sum
        = pieces.length * 18 ^ (4 - depth) := by simp [Function.comp_def]
      _ < 18 * 18 ^ (4 - depth) :=
          Nat.mul_lt_mul_of_pos_right fewer (Nat.pow_pos (by decide))
      _ = 18 ^ (5 - depth) := by
          unfold maxAdaptiveDepth at shallow
          rw [← Nat.pow_succ', show 5 - depth = 4 - depth + 1 by omega]
  · rw [List.map_cons, List.sum_cons]
    exact Nat.lt_add_of_pos_left (Nat.pow_pos (by decide))

/-- `_run_gemini_pipeline`. -/
def runGeminiPipeline (chunks : List Text) (tokenCache : Counting) : Option Pipeline :=
  let pending := chunks.filter hasSpeech
  speakFrom counter prepared answers (pending.map fun text => (text, 0))
    ⟨[], 0, 0, pending.length, tokenCache, 0, []⟩

end

/-! ## What one call makes of a text -/

section

variable {counter : Counter} {prepared : SpeechSettings} {text : Text}

theorem bisectSpeechText_flatten {pieces : List Text} (cut : bisectSpeechText text = some pieces) :
    pieces.flatten = text := by
  unfold bisectSpeechText at cut
  split at cut
  · cases cut
  · split at cut
    · cases cut
      simp
    · cases cut

/-- The calls of the counter through the cache were spent from its budget. -/
def Spent (state : Counting) : Prop :=
  state.asked.length = state.cache.requests ∧ state.cache.requests ≤ maxCountRequests

/-- The pieces that an error brings make up the text. -/
def Lossless (text : Text) (error : TTSContractError) : Prop :=
  ∀ pieces, error.pieces = some pieces → pieces.flatten = text

theorem generateSpeech_spec (answer : Answer) {state : Counting} (spent : Spent state) :
    Spent (generateSpeech counter prepared text answer state).2 ∧
      match (generateSpeech counter prepared text answer state).1 with
      | .rejected => True
      | .audio pcm => pcm = [] ∨ answer = .audio pcm
      | .failed error => Lossless text error := by
  have nothing (reason : String) : Lossless text ⟨reason, none⟩ := by
    intro pieces given
    cases given
  unfold generateSpeech
  split
  · exact ⟨spent, .inl rfl⟩
  next filled =>
  split
  · exact ⟨spent, nothing _⟩
  split
  · exact ⟨spent, .inl rfl⟩
  have sound := Counter.planSpeechChunks_spec (.refl spent.1 spent.2 :
    counter.Sound prepared state state) text
  obtain ⟨sound, planned⟩ := sound
  have later := And.intro sound.spent sound.few
  have cut := (planned filled).1
  generalize counter.planSpeechChunks prepared text state = plan at later cut
  obtain ⟨plan, after⟩ := plan
  cases plan with
  | error error => exact ⟨later, nothing _⟩
  | ok pieces =>
    dsimp only
    split
    · refine ⟨later, fun given same => ?_⟩
      cases same
      exact (cut pieces rfl).2.lossless.1
    · cases answer with
      | rejected => exact ⟨later, trivial⟩
      | audio pcm => exact ⟨later, .inr rfl⟩
      | contract reason => exact ⟨later, nothing _⟩

theorem generateChunk_spec (answers : List Answer) {state : Counting} (spent : Spent state) :
    Spent (generateChunk counter prepared text answers state).2 ∧
      match (generateChunk counter prepared text answers state).1 with
      | .ok pcm => pcm = [] ∨ .audio pcm ∈ answers
      | .error error => Lossless text error := by
  induction answers generalizing state with
  | nil => exact ⟨spent, .inl rfl⟩
  | cons answer rest ih =>
    obtain ⟨later, made⟩ := @generateSpeech_spec counter prepared text answer state spent
    unfold generateChunk
    generalize generateSpeech counter prepared text answer state = outcome at later made
    obtain ⟨outcome, after⟩ := outcome
    cases outcome with
    | rejected =>
      obtain ⟨last, made⟩ := ih later
      refine ⟨last, ?_⟩
      dsimp only
      generalize (generateChunk counter prepared text rest after).1 = chunk at made ⊢
      cases chunk with
      | ok pcm => exact made.imp_right (List.mem_cons_of_mem _)
      | error error => exact made
    | audio pcm =>
      refine ⟨later, made.imp_right fun same => ?_⟩
      rw [same]
      exact List.mem_cons_self
    | failed error =>
      dsimp only
      split
      · exact ⟨later, made⟩
      · exact ⟨later, .inl rfl⟩

end

/-! ## Every text is spoken once and in its place -/

/-- Each text is cut into pieces, and those with speech in them are what is spoken. -/
def Covers (texts spoken : List Text) : Prop :=
  ∃ groups : List (List Text), groups.map List.flatten = texts ∧
    groups.flatten.filter hasSpeech = spoken

namespace Covers

variable {texts rest spoken whole : List Text} {text : Text}

theorem spoken_cons (speech : hasSpeech text = true) (covers : Covers rest spoken) :
    Covers (text :: rest) (text :: spoken) := by
  obtain ⟨groups, rfl, rfl⟩ := covers
  exact ⟨[text] :: groups, by simp, by simp [speech]⟩

/-- Blank pieces that were left out are put back. -/
theorem restore (covers : Covers (whole.filter hasSpeech ++ rest) spoken) :
    Covers (whole ++ rest) spoken := by
  induction whole generalizing spoken with
  | nil => exact covers
  | cons first others ih =>
    by_cases speech : hasSpeech first = true
    · rw [List.filter_cons_of_pos speech] at covers
      obtain ⟨groups, same, rfl⟩ := covers
      obtain ⟨group, behind, rfl, front, back⟩ := List.map_eq_cons_iff.mp same
      obtain ⟨found, all, kept⟩ := ih ⟨behind, back, rfl⟩
      refine ⟨group :: found, ?_, ?_⟩
      · rw [List.map_cons, front, all, List.cons_append]
      · rw [List.flatten_cons, List.filter_append, kept, List.flatten_cons, List.filter_append]
    · rw [List.filter_cons_of_neg speech] at covers
      obtain ⟨groups, same, rfl⟩ := ih covers
      exact ⟨[first] :: groups, by simp [same], by simp [speech]⟩

/-- The pieces of a text cover it. -/
theorem join (covers : Covers (whole ++ rest) spoken) (cut : whole.flatten = text) :
    Covers (text :: rest) spoken := by
  obtain ⟨groups, same, rfl⟩ := covers
  obtain ⟨front, back, rfl, first, second⟩ := List.map_eq_append_iff.mp same
  refine ⟨front.flatten :: back, ?_, ?_⟩
  · rw [List.map_cons, second, ← cut, ← first, List.flatten_flatten]
  · rw [List.flatten_cons, List.flatten_append]

end Covers

section

variable {counter : Counter} {prepared : SpeechSettings} {answers : Nat → Text → List Answer}

/-- A loop that returns its parts cuts or speaks one text after another. -/
theorem speakFrom_rule {motive : List (Text × Nat) → Pipeline → Prop} {after : Pipeline}
    (last : after.parts ≠ [] → motive [] after)
    (cut : ∀ {text depth pending state error pieces},
      let made := generateChunk counter prepared text (answers state.calls text) state.counting
      made.1 = .error error → recovery text depth state.subdivisions error = some pieces →
      motive (deeper depth pieces ++ pending) (state.subdivide pieces made.2) →
        motive ((text, depth) :: pending) state)
    (speak : ∀ {text depth pending state pcm},
      let made := generateChunk counter prepared text (answers state.calls text) state.counting
      made.1 = .ok pcm → pcm ≠ [] → state.audioSize + pcm.length ≤ maxTtsAudioBytes →
      motive pending (state.speak text pcm made.2) → motive ((text, depth) :: pending) state)
    {pending : List (Text × Nat)} {state : Pipeline}
    (done : speakFrom counter prepared answers pending state = some after) :
    motive pending state := by
  fun_induction speakFrom counter prepared answers pending state with
  | case1 => cases done
  | case2 state some =>
    cases done
    exact last some
  | case3 => cases done
  | case4 text depth pending state made error failed pieces found ih =>
    exact cut failed found (ih done)
  | case5 => cases done
  | case6 text depth pending state made pcm spoken fits ih =>
    rw [not_or, Nat.not_lt] at fits
    exact speak spoken fits.1 fits.2 (ih done)

/-- What becomes of the pending texts of a loop that returns its parts. -/
def Speaks (answers : Nat → Text → List Answer) (after : Pipeline) (pending : List (Text × Nat))
    (state : Pipeline) : Prop :=
  Spent state.counting → (∀ entry ∈ pending, hasSpeech entry.1 = true) →
    ∃ spoken : List (Text × List UInt8), after.parts = state.parts ++ spoken ∧
      Covers (pending.map Prod.fst) (spoken.map Prod.fst) ∧
      ∀ part ∈ spoken, part.2 ≠ [] ∧ ∃ call, .audio part.2 ∈ answers call part.1

theorem speakFrom_speaks {pending : List (Text × Nat)} {state after : Pipeline}
    (done : speakFrom counter prepared answers pending state = some after) :
    Speaks answers after pending state := by
  refine speakFrom_rule ?_ ?_ ?_ done
  · intro _ _ _
    refine ⟨[], (List.append_nil _).symm, ⟨[], rfl, rfl⟩, ?_⟩
    intro part member
    cases member
  · intro text depth pending state error pieces made failed found ih spent speech
    obtain ⟨later, lossless⟩ := generateChunk_spec (answers state.calls text) spent
    simp only [made] at failed
    rw [failed] at lossless
    obtain ⟨_, _, _, whole, rfl, source⟩ := recovery_cases found
    have flat : whole.flatten = text := by
      rcases source with given | ⟨_, halves⟩
      · exact lossless whole given
      · exact bisectSpeechText_flatten halves
    obtain ⟨spoken, parts, covers, answered⟩ := ih later (by
      intro entry member
      rcases List.mem_append.mp member with piece | behind
      · obtain ⟨text, listed, rfl⟩ := List.mem_map.mp piece
        exact (List.mem_filter.mp listed).2
      · exact speech entry (List.mem_cons_of_mem _ behind))
    refine ⟨spoken, parts, ?_, answered⟩
    have texts : (deeper depth (whole.filter hasSpeech)).map Prod.fst = whole.filter hasSpeech := by
      rw [deeper, List.map_map]
      exact List.map_id _
    rw [List.map_append, texts] at covers
    exact covers.restore.join flat
  · intro text depth pending state pcm made spoken filled fits ih spent speech
    obtain ⟨later, answered⟩ := generateChunk_spec (answers state.calls text) spent
    simp only [made] at spoken
    rw [spoken] at answered
    obtain ⟨rest, parts, covers, audible⟩ := ih later fun entry member =>
      speech entry (List.mem_cons_of_mem _ member)
    refine ⟨(text, pcm) :: rest, ?_, ?_, ?_⟩
    · rw [parts, Pipeline.speak, List.append_assoc, List.singleton_append]
    · exact covers.spoken_cons (speech _ List.mem_cons_self)
    · intro part member
      rcases List.mem_cons.mp member with rfl | listed
      · exact ⟨filled, state.calls, answered.resolve_left filled⟩
      · exact audible part listed

/--
A pipeline that returns parts has spoken its chunks: they are the pieces with speech in
them of one cutting of the chunks, in their order, and each part is audio that was
answered for its piece.  The token cache may be shared with any plans before.
-/
theorem runGeminiPipeline_speaks (chunks : List Text) (receipts : List SpeechTokenReceipt)
    (plans : List (SpeechSettings × Text)) {after : Pipeline}
    (done : runGeminiPipeline counter prepared answers chunks
      (counter.afterPlans receipts plans) = some after) :
    (∃ pieces : List Text, pieces.flatten = chunks.flatten ∧
      pieces.filter hasSpeech = after.parts.map Prod.fst) ∧
    ∀ part ∈ after.parts, part.2 ≠ [] ∧ ∃ call, .audio part.2 ∈ answers call part.1 := by
  have texts : ((chunks.filter hasSpeech).map fun text => (text, 0)).map Prod.fst =
      chunks.filter hasSpeech := by
    rw [List.map_map]
    exact List.map_id _
  obtain ⟨spoken, parts, covers, answered⟩ :=
    speakFrom_speaks done (@Counter.afterPlans_spent counter receipts plans) (by
      intro entry member
      obtain ⟨text, listed, rfl⟩ := List.mem_map.mp member
      exact (List.mem_filter.mp listed).2)
  rw [List.nil_append] at parts
  rw [texts, ← List.append_nil (chunks.filter hasSpeech)] at covers
  obtain ⟨groups, same, kept⟩ := covers.restore
  rw [List.append_nil] at same
  rw [parts]
  exact ⟨⟨groups.flatten, by rw [← same, List.flatten_flatten], kept⟩, answered⟩

/-- A greeting that the first key rejects and the second one speaks. -/
def greetingSpoken : Option Pipeline :=
  runGeminiPipeline Counter.sample ⟨[], [], none, []⟩ (fun _ _ => [.rejected, .audio [1]])
    ["hi".toList] (Counter.sample.afterPlans [] [])

theorem greetingSpoken_some : ∃ after, greetingSpoken = some after := by
  have speech : ["hi".toList].filter hasSpeech = ["hi".toList] := by decide
  have made : (generateChunk Counter.sample ⟨[], [], none, []⟩ "hi".toList
      [.rejected, .audio [1]] (Counter.sample.afterPlans [] [])).1 = .ok [1] := by rfl
  unfold greetingSpoken runGeminiPipeline
  dsimp only
  rw [speech, List.map_singleton, speakFrom]
  dsimp only
  rw [made]
  dsimp only
  rw [if_neg (by decide), speakFrom, if_neg (by decide)]
  exact ⟨_, rfl⟩

theorem runGeminiPipeline_speaks_greeting : ∃ after, greetingSpoken = some after ∧
    ∃ pieces : List Text, pieces.flatten = "hi".toList ∧
      pieces.filter hasSpeech = after.parts.map Prod.fst := by
  obtain ⟨after, done⟩ := greetingSpoken_some
  exact ⟨after, done, (runGeminiPipeline_speaks _ [] [] done).1⟩

/-! ## Bounds and progress -/

/-- What the loop keeps, from the number of texts it starts with. -/
structure Tracked (start : Nat) (pending : List (Text × Nat)) (state : Pipeline) : Prop where
  whole : state.total = state.parts.length + pending.length
  counted : state.total = start + state.subdivisions
  few : state.subdivisions ≤ maxAdaptiveSplits
  size : state.audioSize = (state.parts.map fun part => part.2.length).sum
  small : state.audioSize ≤ maxTtsAudioBytes
  reported : ∀ report ∈ state.reports,
    report.1 ≤ report.2 ∧ report.1 ≤ state.parts.length ∧ report.2 ≤ state.total
  rising : state.reports.Pairwise fun first second => first.1 ≤ second.1 ∧ first.2 ≤ second.2
  last : state.reports.getLast? = none ∧ state.parts = [] ∨
    state.reports.getLast? = some (state.parts.length, state.total)

/-- A report of the parts that are there keeps the reports in order. -/
theorem Tracked.report {start : Nat} {pending : List (Text × Nat)} {state : Pipeline}
    (tracked : Tracked start pending state) (done total : Nat) (within : done ≤ total)
    (more : state.parts.length ≤ done) (longer : state.total ≤ total) :
    (∀ report ∈ state.reports ++ [(done, total)],
      report.1 ≤ report.2 ∧ report.1 ≤ done ∧ report.2 ≤ total) ∧
    (state.reports ++ [(done, total)]).Pairwise fun first second =>
      first.1 ≤ second.1 ∧ first.2 ≤ second.2 := by
  have before : ∀ report ∈ state.reports,
      report.1 ≤ report.2 ∧ report.1 ≤ done ∧ report.2 ≤ total := fun report listed =>
    have told := tracked.reported report listed
    ⟨told.1, told.2.1.trans more, told.2.2.trans longer⟩
  refine ⟨?_, List.pairwise_append.mpr ⟨tracked.rising, List.pairwise_singleton _ _, ?_⟩⟩
  · intro report listed
    rcases List.mem_append.mp listed with old | new
    · exact before report old
    · rw [List.mem_singleton.mp new]
      exact ⟨within, le_rfl, le_rfl⟩
  · intro report listed other new
    rw [List.mem_singleton.mp new]
    exact (before report listed).2

theorem speakFrom_tracked {start : Nat} {pending : List (Text × Nat)} {state after : Pipeline}
    (tracked : Tracked start pending state)
    (done : speakFrom counter prepared answers pending state = some after) :
    after.parts ≠ [] ∧ Tracked start [] after := by
  revert tracked
  refine speakFrom_rule (motive := fun pending state => Tracked start pending state →
    after.parts ≠ [] ∧ Tracked start [] after) ?_ ?_ ?_ done
  · exact fun some tracked => ⟨some, tracked⟩
  · intro text depth pending state error pieces made failed found ih tracked
    obtain ⟨_, filled, few, _⟩ := recovery_cases found
    have many := List.length_pos_iff.mpr filled
    have whole := tracked.whole
    have counted := tracked.counted
    rw [List.length_cons] at whole
    obtain ⟨reported, rising⟩ := tracked.report state.parts.length
      (state.total + (pieces.length - 1)) (by omega) le_rfl (by omega)
    refine ih ⟨?_, ?_, few, tracked.size, tracked.small, reported, rising, .inr ?_⟩
    · simp only [Pipeline.subdivide, deeper, List.length_append, List.length_map]
      omega
    · simp only [Pipeline.subdivide]
      omega
    · exact List.getLast?_concat
  · intro text depth pending state pcm made spoken filled fits ih tracked
    have whole := tracked.whole
    rw [List.length_cons] at whole
    obtain ⟨reported, rising⟩ := tracked.report (state.parts.length + 1) state.total
      (by omega) (by omega) le_rfl
    have parts : (state.speak text pcm made.2).parts.length = state.parts.length + 1 :=
      List.length_append
    refine ih ⟨?_, tracked.counted, tracked.few, ?_, fits, ?_, rising, .inr ?_⟩
    · rw [parts]
      simp only [Pipeline.speak]
      omega
    · simp only [Pipeline.speak, List.map_append, List.sum_append, tracked.size, List.map_cons,
        List.map_nil, List.sum_cons, List.sum_nil, Nat.add_zero]
    · rw [parts]
      exact reported
    · rw [parts]
      exact List.getLast?_concat

/--
A pipeline that returns parts has one for each chunk with speech in it and for each of at
most sixteen subdivisions, of no more bytes than a message may have; its reports never go
down, no report has more parts than pieces, and the last one has all of both.
-/
theorem runGeminiPipeline_bounded (chunks : List Text) (tokenCache : Counting)
    {after : Pipeline}
    (done : runGeminiPipeline counter prepared answers chunks tokenCache = some after) :
    (chunks.filter hasSpeech).length ≤ after.parts.length ∧
    after.parts.length ≤ (chunks.filter hasSpeech).length + maxAdaptiveSplits ∧
    (after.parts.map fun part => part.2.length).sum ≤ maxTtsAudioBytes ∧
    (∀ report ∈ after.reports, report.1 ≤ report.2) ∧
    after.reports.Pairwise (fun first second => first.1 ≤ second.1 ∧ first.2 ≤ second.2) ∧
    after.reports.getLast? = some (after.parts.length, after.parts.length) := by
  have initial : Tracked (chunks.filter hasSpeech).length
      ((chunks.filter hasSpeech).map fun text => (text, 0))
      ⟨[], 0, 0, (chunks.filter hasSpeech).length, tokenCache, 0, []⟩ :=
    ⟨by rw [List.length_map, List.length_nil, Nat.zero_add], rfl, Nat.zero_le _, rfl,
      Nat.zero_le _, fun _ member => absurd member List.not_mem_nil, .nil, .inl ⟨rfl, rfl⟩⟩
  obtain ⟨some, tracked⟩ := speakFrom_tracked initial done
  have whole := tracked.whole
  have counted := tracked.counted
  have few := tracked.few
  rw [List.length_nil, Nat.add_zero] at whole
  refine ⟨by omega, by omega, tracked.size ▸ tracked.small, fun report listed =>
    (tracked.reported report listed).1, tracked.rising, ?_⟩
  rcases tracked.last with ⟨_, none⟩ | last
  · exact absurd none some
  · rw [last, whole]

theorem runGeminiPipeline_bounded_greeting : ∃ after, greetingSpoken = some after ∧
    after.parts.length ≤ 1 + maxAdaptiveSplits := by
  obtain ⟨after, done⟩ := greetingSpoken_some
  exact ⟨after, done, (runGeminiPipeline_bounded _ _ done).2.1⟩

end

end BobbyBotique.Speech
