import Mathlib.Data.List.Dedup
import Mathlib.Data.List.Sort
import Mathlib.Data.Rat.Defs
import BobbyBotique.Foundation.Dict
import BobbyBotique.Foundation.Run
import BobbyBotique.Speech.Cleaning

/-!
# Planning speech within the model's window

`count_speech_tokens` and `plan_speech_chunks`.  The token counter answers each
call as it likes; deadlines and transport errors are calls that fail.
-/

namespace BobbyBotique.Speech

def geminiTtsInputTokens : Int := 8192

def maxCountRequests : Nat := 64

def maxReceipts : Nat := 96

def maxInputPieces : Nat := 17

def prefixProbes : Nat := 8

/-! ## Boundaries -/

/-- `pattern.finditer` of a pattern that matches no empty text. -/
def finditer (matchAt : Text → Option Nat) : Nat → Text → List (Nat × Nat)
  | _, [] => []
  | start, c :: rest =>
    match matchAt (c :: rest) with
    | some (length + 1) =>
      (start, start + (length + 1)) ::
        finditer matchAt (start + (length + 1)) (rest.drop length)
    | _ => finditer matchAt (start + 1) rest
termination_by _ text => text.length
decreasing_by all_goals simp only [List.length_drop, List.length_cons]; omega

/-- `_SENTENCE_END` at the front of a text. -/
def sentenceEnd : Text → Option Nat
  | [] => none
  | c :: rest =>
    if ['.', '!', '?', '…'].contains c then
      let closing := rest.takeWhile ['"', '\'', '»', '”', ')'].contains
      let blanks := (rest.drop closing.length).takeWhile isSpace
      if blanks = [] then none else some (1 + closing.length + blanks.length)
    else if ['。', '！', '？'].contains c then
      let closing := rest.takeWhile ['"', '\'', '»', '”', '」', '』', '）'].contains
      some (1 + closing.length + ((rest.drop closing.length).takeWhile isSpace).length)
    else none

/-- `\s+` at the front of a text. -/
def blanks (text : Text) : Option Nat := some (text.takeWhile isSpace).length

/-- The two ends of a match that lie inside the text, the first one only in front of a blank. -/
def boundariesOf (text : Text) (found : Nat × Nat) : List Nat :=
  [found.1, found.2].filter fun stop =>
    decide (0 < stop ∧ stop < text.length) && (stop == found.2 || text[stop]?.any isSpace)

def speechTextBoundaries (text : Text) : List Nat :=
  (([sentenceEnd, blanks].flatMap fun pattern =>
    (finditer pattern 0 text).flatMap (boundariesOf text)).dedup).insertionSort (· ≤ ·)

/-- `bisect_right` of a sorted list. -/
def bisectRight (boundaries : List Nat) (value : ℚ) : Nat :=
  (boundaries.takeWhile fun boundary => decide ((boundary : ℚ) ≤ value)).length

/-! ## Counting -/

structure SpeechSettings where
  direction : Text
  voice : Text
  languageCode : Option Text
  modelName : Text
  deriving DecidableEq

structure SpeechIdentity where
  modelName : Text
  sourceHash : String
  metadataHash : String
  deriving DecidableEq

structure SpeechTokenReceipt where
  identity : SpeechIdentity
  inputTokens : Int

structure SpeechTokenCache where
  receipts : Dict SpeechIdentity SpeechTokenReceipt := .empty
  unavailable : List (Text × String) := []
  requests : Nat := 0

/-- `SpeechTokenCache(receipts)`. -/
def SpeechTokenCache.create (receipts : List SpeechTokenReceipt) : SpeechTokenCache where
  receipts := ((receipts.take maxReceipts).filter fun receipt =>
    decide (0 ≤ receipt.inputTokens)).foldl
      (fun table receipt => table.set receipt.identity receipt) .empty

/-- A call of the counter fails, or it answers with a total that is an integer or not. -/
inductive CountAnswer where
  | failed
  | other
  | total (tokens : Int)
  deriving DecidableEq

/-- The counter, the hash and the quotient of floats. -/
structure Counter where
  /-- The answer to each call, in their order. -/
  answer : Nat → SpeechSettings → Text → CountAnswer
  sha256 : Text → String
  quotient : Int → Int → ℚ

/-- A cache, and the texts that were counted through it. -/
structure Counting where
  cache : SpeechTokenCache
  asked : List Text

namespace Counter

variable (counter : Counter)

/-- `_identity`. -/
def identity (text : Text) (prepared : SpeechSettings) : SpeechIdentity where
  modelName := prepared.modelName
  sourceHash := counter.sha256 text
  metadataHash := counter.sha256 (prepared.direction ++ '\x00' :: prepared.voice ++
    '\x00' :: prepared.languageCode.getD [])

/-- `count_speech_tokens`. -/
def countSpeechTokens (prepared : SpeechSettings) (text : Text) (state : Counting) :
    Option SpeechTokenReceipt × Counting :=
  let identity := counter.identity text prepared
  match state.cache.receipts.get? identity with
  | some receipt => (some receipt, state)
  | none =>
    let capability := (identity.modelName, identity.metadataHash)
    if state.cache.unavailable.contains capability ∨
        state.cache.requests ≥ maxCountRequests then (none, state)
    else
      let cache := { state.cache with requests := state.cache.requests + 1 }
      let asked := state.asked ++ [text]
      let lost : Counting :=
        ⟨{ cache with unavailable := capability :: cache.unavailable }, asked⟩
      match counter.answer state.asked.length prepared text with
      | .failed => (none, lost)
      | .other => (none, lost)
      | .total tokens =>
        if tokens < 0 then (none, lost)
        else
          let receipt : SpeechTokenReceipt := ⟨identity, tokens⟩
          if cache.receipts.keys.length < maxReceipts then
            (some receipt,
              ⟨{ cache with receipts := cache.receipts.set identity receipt }, asked⟩)
          else (some receipt, ⟨cache, asked⟩)

/-! ## Planning -/

/-- The probes for the longest prefix that fits. -/
def probe (prepared : SpeechSettings) (remaining : Text) (boundaries : List Nat) :
    Nat → Int → Int → Int → Option Nat → Counting → Except TTSRequestError (Option Nat) × Counting
  | 0, _, _, _, fitting, state => (.ok fitting, state)
  | probes + 1, low, high, candidate, fitting, state =>
    let stop := boundaries.getD candidate.toNat 0
    let (receipt, state) := counter.countSpeechTokens prepared (remaining.take stop) state
    match receipt with
    | none => (.error ⟨"token_count_unavailable"⟩, state)
    | some receipt =>
      if receipt.inputTokens ≤ geminiTtsInputTokens then
        if receipt.inputTokens = geminiTtsInputTokens then (.ok (some stop), state)
        else if high - candidate ≤ 1 then (.ok (some stop), state)
        else probe prepared remaining boundaries probes candidate high ((candidate + high) / 2)
          (some stop) state
      else if candidate - low ≤ 1 then (.ok fitting, state)
      else probe prepared remaining boundaries probes low candidate ((low + candidate) / 2)
        fitting state

/-- The first probe. -/
def firstCandidate (remaining : Text) (boundaries : List Nat) (counted metadata : Int) : Int :=
  let available := geminiTtsInputTokens - metadata
  let estimated := counter.quotient (remaining.length * available) (max 1 (counted - metadata))
  max 0 (min (boundaries.length - 1) ((bisectRight boundaries estimated : Int) - 1))

/-- The loop over what is left of the text. -/
def planFrom (prepared : SpeechSettings) (metadata : Int) (remaining : Text) (counted : Int)
    (chunks : List Text) (state : Counting) : Except TTSRequestError (List Text) × Counting :=
  if counted > geminiTtsInputTokens then
    if chunks.length ≥ maxInputPieces - 1 then (.error ⟨"input_too_large"⟩, state)
    else
      let boundaries := speechTextBoundaries remaining
      if boundaries = [] then (.error ⟨"unsplittable_text"⟩, state)
      else
        match counter.probe prepared remaining boundaries prefixProbes (-1) boundaries.length
          (counter.firstCandidate remaining boundaries counted metadata) none state with
        | (.error error, state) => (.error error, state)
        | (.ok none, state) => (.error ⟨"unsplittable_text"⟩, state)
        | (.ok (some fitting), state) =>
          match counter.countSpeechTokens prepared (remaining.drop fitting) state with
          | (none, state) => (.error ⟨"token_count_unavailable"⟩, state)
          | (some receipt, state) =>
            planFrom prepared metadata (remaining.drop fitting) receipt.inputTokens
              (chunks ++ [remaining.take fitting]) state
  else (.ok (if remaining = [] then chunks else chunks ++ [remaining]), state)
termination_by maxInputPieces - chunks.length
decreasing_by simp only [List.length_append, List.length_singleton]; omega

/-- `plan_speech_chunks`. -/
def planSpeechChunks (prepared : SpeechSettings) (text : Text) (state : Counting) :
    Except TTSRequestError (List Text) × Counting :=
  match counter.countSpeechTokens prepared text state with
  | (none, state) => (.ok [text], state)
  | (some whole, state) =>
    if whole.inputTokens ≤ geminiTtsInputTokens then (.ok [text], state)
    else
      match counter.countSpeechTokens prepared [] state with
      | (none, state) => (.error ⟨"token_count_unavailable"⟩, state)
      | (some metadata, state) =>
        if metadata.inputTokens ≥ geminiTtsInputTokens then (.error ⟨"input_too_large"⟩, state)
        else counter.planFrom prepared metadata.inputTokens text whole.inputTokens [] state

end Counter

/-! ## Boundaries cut -/

theorem mem_speechTextBoundaries {text : Text} {stop : Nat}
    (member : stop ∈ speechTextBoundaries text) : 0 < stop ∧ stop < text.length := by
  rw [speechTextBoundaries, List.mem_insertionSort, List.mem_dedup, List.mem_flatMap] at member
  obtain ⟨pattern, _, member⟩ := member
  obtain ⟨found, _, member⟩ := List.mem_flatMap.mp member
  have test := (List.mem_filter.mp member).2
  rw [Bool.and_eq_true, decide_eq_true_eq] at test
  exact test.1

/-! ## Counts that were received -/

namespace Counter

variable (counter : Counter) (prepared : SpeechSettings)

/-- The count of the text was in the cache before, or the counter has answered it since. -/
def Received (before after : Counting) (text : Text) (tokens : Int) : Prop :=
  (∃ receipt, before.cache.receipts.get? (counter.identity text prepared) = some receipt ∧
    receipt.inputTokens = tokens) ∨
  ∃ place asked, before.asked.length ≤ place ∧ after.asked[place]? = some asked ∧
    counter.identity asked prepared = counter.identity text prepared ∧
    counter.answer place prepared asked = .total tokens

/-- Every count of the cache was received, and every call was spent from its budget. -/
structure Sound (before after : Counting) : Prop where
  asked : before.asked <+: after.asked
  known : ∀ text receipt,
    after.cache.receipts.get? (counter.identity text prepared) = some receipt →
      counter.Received prepared before after text receipt.inputTokens
  spent : after.asked.length = after.cache.requests
  few : after.cache.requests ≤ maxCountRequests

variable {counter prepared} {before state after : Counting}

theorem Received.mono {text : Text} {tokens : Int}
    (received : counter.Received prepared before state text tokens)
    (later : state.asked <+: after.asked) : counter.Received prepared before after text tokens := by
  rcases received with cached | ⟨place, asked, since, stands, same, answered⟩
  · exact .inl cached
  · obtain ⟨rest, whole⟩ := later
    refine .inr ⟨place, asked, since, ?_, same, answered⟩
    rw [← whole, List.getElem?_append_left (List.getElem?_eq_some_iff.mp stands).1]
    exact stands

/-- A call of the counter is spent, whatever becomes of it. -/
theorem Sound.ask (sound : counter.Sound prepared before state) (text : Text)
    (room : state.cache.requests < maxCountRequests) (unavailable : List (Text × String)) :
    counter.Sound prepared before
      ⟨⟨state.cache.receipts, unavailable, state.cache.requests + 1⟩, state.asked ++ [text]⟩ where
  asked := sound.asked.trans (List.prefix_append _ _)
  known other receipt found := (sound.known other receipt found).mono (List.prefix_append _ _)
  spent := by rw [List.length_append, List.length_singleton, sound.spent]
  few := room

/-- The answer of the last call is received. -/
theorem Sound.received (sound : counter.Sound prepared before state) {text : Text} {tokens : Int}
    (answered : counter.answer state.asked.length prepared text = .total tokens)
    (cache : SpeechTokenCache) :
    counter.Received prepared before ⟨cache, state.asked ++ [text]⟩ text tokens :=
  .inr ⟨state.asked.length, text, sound.asked.length_le, List.getElem?_concat_length, rfl, answered⟩

/-- A count keeps the cache sound, and what it returns was received. -/
theorem Sound.count (sound : counter.Sound prepared before state) (text : Text) :
    let counted := counter.countSpeechTokens prepared text state
    counter.Sound prepared before counted.2 ∧ state.asked <+: counted.2.asked ∧
      ∀ receipt, counted.1 = some receipt →
        counter.Received prepared before counted.2 text receipt.inputTokens := by
  dsimp only
  unfold countSpeechTokens
  dsimp only
  split
  · next receipt found =>
      refine ⟨sound, List.prefix_rfl, fun other same => ?_⟩
      cases same
      exact sound.known text receipt found
  · split
    · exact ⟨sound, List.prefix_rfl, fun other none => nomatch none⟩
    · next open_ =>
        have room : state.cache.requests < maxCountRequests :=
          Nat.not_le.mp fun spent => open_ (.inr spent)
        have longer := List.prefix_append state.asked [text]
        split
        · exact ⟨sound.ask text room _, longer, fun other none => nomatch none⟩
        · exact ⟨sound.ask text room _, longer, fun other none => nomatch none⟩
        · next tokens answered =>
            split
            · exact ⟨sound.ask text room _, longer, fun other none => nomatch none⟩
            · have asked := sound.ask text room state.cache.unavailable
              split
              · refine ⟨⟨asked.asked, ?_, asked.spent, asked.few⟩, longer, ?_⟩
                · intro other receipt found
                  rw [Dict.get?_set] at found
                  split at found
                  · next same =>
                      cases found
                      rcases sound.received answered state.cache with cached | call
                      · exact .inl (same ▸ cached)
                      · obtain ⟨place, text, since, stands, alike, told⟩ := call
                        exact .inr ⟨place, text, since, stands, alike.trans same.symm, told⟩
                  · exact asked.known other receipt found
                · intro receipt same
                  cases same
                  exact sound.received answered _
              · refine ⟨asked, longer, fun receipt same => ?_⟩
                cases same
                exact sound.received answered _

/-! ## The loops -/

/-- The place is that of a boundary whose prefix fits. -/
def Fits (counter : Counter) (prepared : SpeechSettings) (before after : Counting)
    (remaining : Text) (boundaries : List Nat) (stop : Nat) : Prop :=
  stop ∈ boundaries ∧ ∃ tokens ≤ geminiTtsInputTokens,
    counter.Received prepared before after (remaining.take stop) tokens

theorem Fits.mono {remaining : Text} {boundaries : List Nat} {stop : Nat}
    (fits : Fits counter prepared before state remaining boundaries stop)
    (later : state.asked <+: after.asked) :
    Fits counter prepared before after remaining boundaries stop := by
  obtain ⟨member, tokens, small, received⟩ := fits
  exact ⟨member, tokens, small, received.mono later⟩

/-- The candidate stays strictly between what fits and what does not. -/
theorem probe_spec (remaining : Text) {boundaries : List Nat} (probes : Nat)
    {low high candidate : Int} {fitting : Option Nat}
    (sound : counter.Sound prepared before state) (least : -1 ≤ low) (above : low < candidate)
    (below : candidate < high) (most : high ≤ boundaries.length)
    (fits : ∀ stop ∈ fitting, Fits counter prepared before state remaining boundaries stop) :
    let done := counter.probe prepared remaining boundaries probes low high candidate fitting state
    counter.Sound prepared before done.2 ∧ state.asked <+: done.2.asked ∧
      ∀ stop, done.1 = .ok (some stop) →
        Fits counter prepared before done.2 remaining boundaries stop := by
  induction probes generalizing low high candidate fitting state with
  | zero => exact ⟨sound, List.prefix_rfl, fun stop same => fits stop (Except.ok.inj same)⟩
  | succ probes ih =>
    dsimp only
    unfold probe
    obtain ⟨counted, longer, received⟩ :=
      sound.count (remaining.take (boundaries.getD candidate.toNat 0))
    dsimp only
    generalize counter.countSpeechTokens prepared
      (remaining.take (boundaries.getD candidate.toNat 0)) state = answer
      at counted longer received
    obtain ⟨receipt, next⟩ := answer
    cases receipt with
    | none => exact ⟨counted, longer, fun stop impossible => nomatch impossible⟩
    | some receipt =>
      dsimp only at counted longer received ⊢
      have inside : candidate.toNat < boundaries.length := by omega
      have kept : ∀ stop ∈ fitting,
          Fits counter prepared before next remaining boundaries stop :=
        fun stop member => (fits stop member).mono longer
      split
      · next small =>
          have only : ∀ stop ∈ some (boundaries.getD candidate.toNat 0),
              Fits counter prepared before next remaining boundaries stop := by
            intro stop member
            cases member
            refine ⟨?_, _, small, received receipt rfl⟩
            rw [List.getD_eq_getElem?_getD, List.getElem?_eq_getElem inside, Option.getD_some]
            exact List.getElem_mem inside
          split
          · exact ⟨counted, longer, fun stop same => only stop (Except.ok.inj same)⟩
          · split
            · exact ⟨counted, longer, fun stop same => only stop (Except.ok.inj same)⟩
            · obtain ⟨later, more, found⟩ :=
                ih counted (Int.le_trans least (Int.le_of_lt above))
                  (show candidate < (candidate + high) / 2 by omega) (by omega) most only
              exact ⟨later, longer.trans more, found⟩
      · split
        · exact ⟨counted, longer, fun stop same => kept stop (Except.ok.inj same)⟩
        · obtain ⟨later, more, found⟩ :=
            ih counted least (show low < (low + candidate) / 2 by omega)
              (show _ < candidate by omega) (by omega) kept
          exact ⟨later, longer.trans more, found⟩

end Counter

/-- A text is cut at its boundaries, each time at one of what is left of it. -/
inductive CutAtBoundaries : Text → List Text → Prop where
  | whole {text : Text} (some : text ≠ []) : CutAtBoundaries text [text]
  | cut {text : Text} {stop : Nat} {pieces : List Text}
      (boundary : stop ∈ speechTextBoundaries text) (rest : CutAtBoundaries (text.drop stop) pieces) :
      CutAtBoundaries text (text.take stop :: pieces)

theorem CutAtBoundaries.lossless {text : Text} {pieces : List Text}
    (cut : CutAtBoundaries text pieces) : pieces.flatten = text ∧ ∀ piece ∈ pieces, piece ≠ [] := by
  induction cut with
  | whole some =>
    refine ⟨List.append_nil _, fun piece member => ?_⟩
    rw [List.mem_singleton.mp member]
    exact some
  | @cut text stop pieces boundary _ ih =>
    obtain ⟨positive, inside⟩ := mem_speechTextBoundaries boundary
    refine ⟨?_, fun piece member => ?_⟩
    · rw [List.flatten_cons, ih.1, List.take_append_drop]
    · rcases List.mem_cons.mp member with rfl | later
      · intro none
        have length := congrArg List.length none
        rw [List.length_take, List.length_nil] at length
        omega
      · exact ih.2 piece later

namespace Counter

variable {counter : Counter} {prepared : SpeechSettings} {before state : Counting}

/-- The pieces behind those that are cut already fit and are cut at boundaries. -/
def Planned (counter : Counter) (prepared : SpeechSettings) (before after : Counting) (text : Text)
    (pieces : List Text) : Prop :=
  CutAtBoundaries text pieces ∧ ∀ piece ∈ pieces, ∃ tokens ≤ geminiTtsInputTokens,
    counter.Received prepared before after piece tokens

theorem firstCandidate_range (counter : Counter) (remaining : Text) {boundaries : List Nat}
    (some : boundaries ≠ []) (counted metadata : Int) :
    -1 < counter.firstCandidate remaining boundaries counted metadata ∧
      counter.firstCandidate remaining boundaries counted metadata < boundaries.length := by
  have filled := List.length_pos_iff.mpr some
  unfold firstCandidate
  dsimp only
  omega

/-- Every turn cuts off a piece that fits; the loop has turns for sixteen of them. -/
theorem planFrom_spec (metadata : Int) {remaining : Text} {counted : Int} {chunks : List Text}
    (sound : counter.Sound prepared before state) (few : chunks.length < maxInputPieces)
    (received : counter.Received prepared before state remaining counted) :
    let done := counter.planFrom prepared metadata remaining counted chunks state
    counter.Sound prepared before done.2 ∧ state.asked <+: done.2.asked ∧
      (remaining ≠ [] → ∀ result, done.1 = .ok result → ∃ pieces, result = chunks ++ pieces ∧
        result.length ≤ maxInputPieces ∧
        Planned counter prepared before done.2 remaining pieces) := by
  induction turns : maxInputPieces - chunks.length using Nat.strong_induction_on
    generalizing remaining counted chunks state with
  | _ turns ih =>
    unfold planFrom
    by_cases fits : counted > geminiTtsInputTokens
    · rw [if_pos fits]
      by_cases spent : chunks.length ≥ maxInputPieces - 1
      · rw [if_pos spent]
        exact ⟨sound, List.prefix_rfl, fun _ result impossible => by cases impossible⟩
      · rw [if_neg spent]
        by_cases none : speechTextBoundaries remaining = []
        · rw [if_pos none]
          exact ⟨sound, List.prefix_rfl, fun _ result impossible => by cases impossible⟩
        · rw [if_neg none]
          obtain ⟨low, high⟩ := counter.firstCandidate_range remaining none counted metadata
          obtain ⟨probed, longer, found⟩ := probe_spec remaining prefixProbes sound
            (Int.le_refl _) low high (Int.le_refl _)
            (fun stop (absurd : stop ∈ (Option.none : Option Nat)) => by cases absurd)
          generalize counter.probe prepared remaining (speechTextBoundaries remaining) prefixProbes
            (-1) (speechTextBoundaries remaining).length
            (counter.firstCandidate remaining (speechTextBoundaries remaining) counted metadata)
            Option.none state = outcome at probed longer found
          obtain ⟨outcome, next⟩ := outcome
          rcases outcome with error | (_ | fitting)
          · exact ⟨probed, longer, fun _ result impossible => by cases impossible⟩
          · exact ⟨probed, longer, fun _ result impossible => by cases impossible⟩
          · obtain ⟨boundary, tokens, small, piece⟩ := found fitting rfl
            obtain ⟨positive, inside⟩ := mem_speechTextBoundaries boundary
            obtain ⟨later, further, rest⟩ := probed.count (remaining.drop fitting)
            dsimp only at later further rest ⊢
            generalize counter.countSpeechTokens prepared (remaining.drop fitting) next = answer
              at later further rest
            obtain ⟨receipt, after⟩ := answer
            cases receipt with
            | none =>
              exact ⟨later, longer.trans further, fun _ result impossible => by cases impossible⟩
            | some receipt =>
              have left : remaining.drop fitting ≠ [] := by
                intro empty
                have length := congrArg List.length empty
                rw [List.length_drop, List.length_nil] at length
                omega
              have longer' : (chunks ++ [remaining.take fitting]).length = chunks.length + 1 := by
                rw [List.length_append, List.length_singleton]
              obtain ⟨done, more, planned⟩ :=
                ih (maxInputPieces - (chunks ++ [remaining.take fitting]).length) (by omega)
                  later (by omega) (rest receipt rfl) rfl
              refine ⟨done, longer.trans (further.trans more), fun _ result same => ?_⟩
              obtain ⟨pieces, split, short, cut, fit⟩ := planned left result same
              refine ⟨remaining.take fitting :: pieces, ?_, short, .cut boundary cut, ?_⟩
              · rw [split, List.append_assoc, List.singleton_append]
              · intro other member
                rcases List.mem_cons.mp member with rfl | member
                · exact ⟨tokens, small, piece.mono (further.trans more)⟩
                · exact fit other member
    · rw [if_neg fits]
      refine ⟨sound, List.prefix_rfl, fun filled result same => ?_⟩
      rw [if_neg filled] at same
      refine ⟨[remaining], (Except.ok.inj same).symm, ?_, .whole filled, ?_⟩
      · rw [← Except.ok.inj same, List.length_append, List.length_singleton]
        exact few
      · intro piece member
        rw [List.mem_singleton.mp member]
        exact ⟨counted, Int.not_lt.mp fits, received⟩

/-- Nothing was counted yet. -/
theorem Sound.refl (spent : before.asked.length = before.cache.requests)
    (few : before.cache.requests ≤ maxCountRequests) : counter.Sound prepared before before :=
  ⟨List.prefix_rfl, fun _ receipt found => .inl ⟨receipt, found, rfl⟩, spent, few⟩

/-- A plan returns the text whole where it fits or cannot be counted, else pieces that fit. -/
theorem planSpeechChunks_spec (sound : counter.Sound prepared before before) (text : Text) :
    let done := counter.planSpeechChunks prepared text before
    counter.Sound prepared before done.2 ∧ (text ≠ [] → (∀ result, done.1 = .ok result →
        result.length ≤ maxInputPieces ∧ CutAtBoundaries text result) ∧
      match (counter.countSpeechTokens prepared text before).1 with
      | none => done.1 = .ok [text]
      | some whole =>
        if whole.inputTokens ≤ geminiTtsInputTokens then done.1 = .ok [text]
        else ∀ result, done.1 = .ok result →
          Planned counter prepared before done.2 text result) := by
  unfold planSpeechChunks
  obtain ⟨counted, _, received⟩ := sound.count text
  dsimp only at counted received ⊢
  generalize counter.countSpeechTokens prepared text before = answer at counted received
  obtain ⟨whole, next⟩ := answer
  have single : text ≠ [] → ∀ result,
      (Except.ok [text] : Except TTSRequestError (List Text)) = .ok result →
        result.length ≤ maxInputPieces ∧ CutAtBoundaries text result := by
    intro filled result same
    cases same
    exact ⟨Nat.le_of_ble_eq_true rfl, .whole filled⟩
  cases whole with
  | none => exact ⟨counted, fun filled => ⟨single filled, rfl⟩⟩
  | some whole =>
    dsimp only at received ⊢
    by_cases fits : whole.inputTokens ≤ geminiTtsInputTokens
    · rw [if_pos fits, if_pos fits]
      exact ⟨counted, fun filled => ⟨single filled, rfl⟩⟩
    · rw [if_neg fits, if_neg fits]
      obtain ⟨again, longer, _⟩ := counted.count []
      dsimp only at again longer ⊢
      generalize counter.countSpeechTokens prepared [] next = answer at again longer
      obtain ⟨metadata, after⟩ := answer
      have failed : ∀ {error : TTSRequestError} {holds : List Text → Prop} (result : List Text),
          (Except.error error : Except TTSRequestError (List Text)) = .ok result →
            holds result := fun _ impossible => nomatch impossible
      cases metadata with
      | none => exact ⟨again, fun _ => ⟨failed, failed⟩⟩
      | some metadata =>
        dsimp only
        split
        · exact ⟨again, fun _ => ⟨failed, failed⟩⟩
        · obtain ⟨done, _, planned⟩ := planFrom_spec metadata.inputTokens again
            (show ([] : List Text).length < maxInputPieces by decide)
            ((received whole rfl).mono longer)
          refine ⟨done, fun filled => ⟨fun result same => ?_, fun result same => ?_⟩⟩
          · obtain ⟨pieces, split, short, cut, _⟩ := planned filled result same
            exact ⟨short, split ▸ cut⟩
          · obtain ⟨pieces, split, _, cut⟩ := planned filled result same
            exact split ▸ cut

/-- The cache after some plans that share it. -/
def afterPlans (counter : Counter) (receipts : List SpeechTokenReceipt)
    (plans : List (SpeechSettings × Text)) : Counting :=
  Run.run (fun state plan => (counter.planSpeechChunks plan.1 plan.2 state).2)
    ⟨.create receipts, []⟩ plans

/-- Every call through the cache was spent from its budget. -/
theorem afterPlans_spent (receipts : List SpeechTokenReceipt)
    (plans : List (SpeechSettings × Text)) :
    (counter.afterPlans receipts plans).asked.length =
        (counter.afterPlans receipts plans).cache.requests ∧
      (counter.afterPlans receipts plans).cache.requests ≤ maxCountRequests :=
  Run.run_keeps
    (fun state : Counting => state.asked.length = state.cache.requests ∧
      state.cache.requests ≤ maxCountRequests)
    (fun state (plan : SpeechSettings × Text) spent =>
      have held : counter.Sound plan.1 state state := .refl spent.1 spent.2
      have sound := (planSpeechChunks_spec held plan.2).1
      ⟨sound.spent, sound.few⟩)
    ⟨rfl, Nat.zero_le _⟩ plans

/--
For every counter, cache and nonempty text: a plan that does not fail returns at most
seventeen nonempty pieces, cut at boundaries, that make up the text; the text is left whole
where its count fits or is unknown, and else every piece has a received count that fits;
through one cache the counter is called at most sixty-four times.
-/
theorem planSpeechChunks_lossless (counter : Counter) (receipts : List SpeechTokenReceipt)
    (plans : List (SpeechSettings × Text)) (prepared : SpeechSettings) (text : Text)
    (filled : text ≠ []) :
    let before := counter.afterPlans receipts plans
    let done := counter.planSpeechChunks prepared text before
    done.2.asked.length ≤ maxCountRequests ∧
      (∀ result, done.1 = .ok result → result.length ≤ maxInputPieces ∧
        (∀ piece ∈ result, piece ≠ []) ∧ result.flatten = text ∧ CutAtBoundaries text result) ∧
      match (counter.countSpeechTokens prepared text before).1 with
      | none => done.1 = .ok [text]
      | some whole =>
        if whole.inputTokens ≤ geminiTtsInputTokens then done.1 = .ok [text]
        else ∀ result, done.1 = .ok result → ∀ piece ∈ result, ∃ tokens ≤ geminiTtsInputTokens,
            counter.Received prepared before done.2 piece tokens := by
  intro before done
  obtain ⟨spent, few⟩ := @afterPlans_spent counter receipts plans
  have held : counter.Sound prepared before before := .refl spent few
  obtain ⟨sound, planned⟩ := planSpeechChunks_spec held text
  obtain ⟨cut, whole⟩ := planned filled
  refine ⟨sound.spent ▸ sound.few, fun result same => ?_, ?_⟩
  · obtain ⟨short, pieces⟩ := cut result same
    exact ⟨short, pieces.lossless.2, pieces.lossless.1, pieces⟩
  · change match (counter.countSpeechTokens prepared text before).1 with
      | none => done.1 = .ok [text]
      | some whole =>
        if whole.inputTokens ≤ geminiTtsInputTokens then done.1 = .ok [text]
        else ∀ result, done.1 = .ok result →
          Planned counter prepared before done.2 text result at whole
    split at whole
    · exact whole
    · split at whole
      · next fits =>
          rw [if_pos fits]
          exact whole
      · next past =>
          rw [if_neg past]
          exact fun result same => (whole result same).2

/-- A counter that finds every text short. -/
def sample : Counter where
  answer _ _ text := .total text.length
  sha256 text := String.ofList text
  quotient _ _ := 0

theorem planSpeechChunks_lossless_pair :
    CutAtBoundaries "a b".toList ["a b".toList] ∧
      (sample.planSpeechChunks ⟨[], [], none, []⟩ "a b".toList
        (sample.afterPlans [] [])).2.asked.length ≤ maxCountRequests := by
  have planned := planSpeechChunks_lossless sample [] [] ⟨[], [], none, []⟩ "a b".toList (by decide)
  exact ⟨(planned.2.1 _ (by rfl)).2.2.2, planned.1⟩

end Counter

end BobbyBotique.Speech
