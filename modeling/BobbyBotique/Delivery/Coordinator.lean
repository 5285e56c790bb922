import BobbyBotique.Foundation.Composed
import BobbyBotique.Foundation.Text
import BobbyBotique.Observability.Patterns
import BobbyBotique.Router.Race
import BobbyBotique.Delivery.Renderer
import Mathlib.Data.List.Infix

/-!
# A streamed answer

`AIStreamCoordinator.run` with the presentations that prepare the finished text: the tag
that asks for a voice, the traces of a search tool and the hidden tags of an answer.
-/

namespace BobbyBotique.Delivery.Stream

open Observability (folded startsFolded)

/-! ## Leaked traces of a search -/

/-- The characters at which `str.splitlines` ends a line. -/
def isLineEnd (c : Char) : Bool :=
  [10, 11, 12, 13, 28, 29, 30, 133, 8232, 8233].contains c.toNat

/-- A character in front of the first line. -/
def consLine (c : Char) : List Text → List Text
  | [] => [[c]]
  | line :: rest => (c :: line) :: rest

/-- `text.splitlines(keepends=True)`. -/
def splitlines : Text → List Text
  | [] => []
  | '\r' :: '\n' :: rest => ['\r', '\n'] :: splitlines rest
  | c :: rest => if isLineEnd c then [c] :: splitlines rest else consLine c (splitlines rest)

def toolCode : Text := "[tool_code]".toList

/-- What follows a prefix. -/
def behind (front text : Text) : Option Text :=
  if front.isPrefixOf text then some (text.drop front.length) else none

/-- What follows a call of the search tool, with `print(` before it or not. -/
def behindCall (text : Text) : Option Text := do
  let call := (behind "print(".toList text).getD text
  let arguments ← behind "google_search.search(".toList call
  let closed := arguments.dropWhile (· ≠ ')')
  guard (closed ≠ [])
  return (behind [')'] (closed.drop 1)).getD (closed.drop 1)

/-- `_HALLUCINATED_TOOL_LINE_RE` on a line without blanks around it. -/
def isToolLine (stripped : Text) : Bool :=
  stripped == "import google_search".toList || behindCall stripped == some []

/-- The lines that are kept; `skip` says whether a trace is being left out. -/
def keepLines : Bool → List Text → Text
  | _, [] => []
  | skip, line :: rest =>
    let stripped := strip line
    if stripped = toolCode then keepLines true rest
    else if skip ∧ (stripped = [] ∨ isToolLine stripped) then keepLines skip rest
    else line ++ keepLines false rest

/-- `_HALLUCINATED_TOOL_INLINE_RE` at the front of a text: what a match leaves. -/
def behindInline (text : Text) : Option Text := do
  let code ← behind toolCode text
  let called ← behindCall (lstrip code)
  return lstrip called

/-- A match is replaced by nothing. -/
def inlinePattern (_ : Option Char) (text : Text) : Option (Nat × Text) :=
  (behindInline text).map fun rest => (text.length - rest.length, [])

/-- `strip_hallucinated_tool_trace`. -/
def stripHallucinatedToolTrace (text : Text) : Text :=
  if toolCode <:+: text then
    resub inlinePattern 0 none (keepLines false (splitlines text))
  else text

/-! ## Hidden tags -/

/-- The first match in a text: what stands before it, what it gives, what follows it. -/
def searchTag {A : Type} (matchAt : Text → Option (A × Text)) : Text → Option (Text × A × Text)
  | [] => none
  | c :: rest =>
    match matchAt (c :: rest) with
    | some (found, behind) => some ([], found, behind)
    | none => (searchTag matchAt rest).map fun result => (c :: result.1, result.2)

/-- `[SC\u0421]` when case is ignored. -/
def isSuggestionLetter (c : Char) : Bool :=
  folded c == 's' || folded c == 'c' || [0x421, 0x441, 0x1C83].contains c.toNat

/-- `(.+?)\]`: at least one letter of the line, up to the next bracket. -/
def untilBracket (text : Text) : Option (Text × Text) :=
  match text with
  | [] => none
  | c :: rest =>
    let tail := rest.takeWhile fun c => c ≠ ']' ∧ c ≠ '\n'
    let behind := rest.dropWhile fun c => c ≠ ']' ∧ c ≠ '\n'
    if c = '\n' ∨ behind.head? ≠ some ']' then none else some (c :: tail, behind.drop 1)

/-- `\s*(.+?)\]`: of the blanks the last are given back until the rest matches. -/
def blanksUntilBracket (text : Text) : Option (Text × Text) :=
  (List.range ((text.takeWhile isSpace).length + 1)).reverse.findSome? fun blanks =>
    untilBracket (text.drop blanks)

/-- `_SUGGESTIONS_RE` at the front of a text. -/
def suggestionsAt : Text → Option (Text × Text)
  | '[' :: letter :: rest =>
    if isSuggestionLetter letter ∧ startsFolded "uggestions:" rest then
      blanksUntilBracket (rest.drop 11)
    else none
  | _ => none

/-- `_INTENT_RE` at the front of a text. -/
def intentAt : Text → Option (Text × Text)
  | '[' :: rest =>
    if startsFolded "intent:" rest then
      ["draw", "research", "tts"].findSome? fun intent =>
        let word := rest.drop 7
        let behind := word.drop intent.toList.length
        if startsFolded intent word ∧ behind.head? = some ']' then
          some (word.take intent.toList.length, behind.drop 1)
        else none
    else none
  | _ => none

structure Suggestion where
  id : Text
  label : Text

def maxSuggestions : Nat := 3

def maxSuggestionLabelLen : Nat := 100

/-- `raw.split("|")`. -/
def splitBars : Text → List Text
  | [] => [[]]
  | c :: rest =>
    if c = '|' then [] :: splitBars rest
    else consLine c (splitBars rest)

section

-- `hashlib.sha256(…).hexdigest()` of a text.
variable (digest : Text → Text)

/-- The suggestions of a tag. -/
def suggestionsOf (raw : Text) : List Suggestion :=
  let given := ((splitBars raw).map strip).filter (· ≠ [])
  (given.map fun full =>
    ⟨(digest full).take 10,
      if maxSuggestionLabelLen < full.length then
        full.take (maxSuggestionLabelLen - 3) ++ "...".toList
      else full⟩).take maxSuggestions

/-- `extract_suggestions`. -/
def extractSuggestions (text : Text) : Text × List Suggestion :=
  match searchTag suggestionsAt text with
  | some (before, raw, behind) => (before ++ behind, suggestionsOf digest raw)
  | none => (text, [])

/-- `extract_intent`. -/
def extractIntent (text : Text) : Text × Option Text :=
  match searchTag intentAt text with
  | some (before, intent, behind) => (before ++ behind, some (intent.map Char.toLower))
  | none => (text, none)

/-- `re.sub(r"\n{3,}", "\n\n", text)`, after so many line ends. -/
def squeezeLines : Nat → Text → Text
  | ends, [] => List.replicate (if 3 ≤ ends then 2 else ends) '\n'
  | ends, c :: rest =>
    if c = '\n' then squeezeLines (ends + 1) rest
    else List.replicate (if 3 ≤ ends then 2 else ends) '\n' ++ c :: squeezeLines 0 rest

/-- `parse_response_tags`. -/
def parseResponseTags (text : Text) : Text × Option Text × List Suggestion :=
  let (text, suggestions) := extractSuggestions digest text
  let (text, intent) := extractIntent text
  (strip (squeezeLines 0 text), intent, suggestions)

end

/-! ## Presentations -/

def voiceTag : Text := "[VOICE]".toList

/-- A leading tag is taken out; the blanks before it stay. -/
def dropVoiceTag (content : Text) : Text :=
  if voiceTag.isPrefixOf (lstrip content) then
    content.take (content.length - (lstrip content).length) ++
      lstrip ((lstrip content).drop voiceTag.length)
  else content

/-- What both presentations have, for any kind of actions. -/
structure Presentation (Actions : Type) where
  recoveryActions : Option Actions
  failureActions : Option Actions
  displayPrefix : Text
  footer : Text
  longReadTitle : Text

structure PreparedPresentation (Actions : Type) where
  contentText : Text
  actions : Option Actions
  recoveryActions : Option Actions
  failureActions : Option Actions
  displayPrefix : Text
  footer : Text
  longReadTitle : Text

inductive TelegramPresentation (Actions : Type) where
  | fixed (actions : Option Actions) (fields : Presentation Actions)
  | chat (actionBuilder : Text → Option Text → List Suggestion → Option Actions)
      (fields : Presentation Actions)

/-- The content with its tags, as both presentations read it. -/
def parsedContent (digest : Text → Text) (raw : Text) : Text × Option Text × List Suggestion :=
  let (content, intent, suggestions) :=
    parseResponseTags digest (dropVoiceTag (stripHallucinatedToolTrace raw))
  (strip content, intent, suggestions)

def prepared {Actions : Type} (fields : Presentation Actions) (content : Text)
    (actions : Option Actions) : PreparedPresentation Actions :=
  ⟨content, actions, fields.recoveryActions, fields.failureActions, fields.displayPrefix,
    fields.footer, fields.longReadTitle⟩

/-- `FixedPresentation.prepare` and `ChatPresentation.prepare`. -/
def TelegramPresentation.prepare {Actions : Type} (digest : Text → Text)
    (presentation : TelegramPresentation Actions) (raw : Text) : PreparedPresentation Actions :=
  let (content, intent, suggestions) := parsedContent digest raw
  match presentation with
  | .fixed actions fields => prepared fields content actions
  | .chat actionBuilder fields => prepared fields content (actionBuilder content intent suggestions)

/-! ## The events of the router -/

open Router (ErrorCode FailurePhase)

inductive FinishKind where
  | stop | maxTokens | safety | recitation | other

/-- A chunk of the answer has visible text. -/
structure TextDelta where
  text : Text
  visible : strip text ≠ []

/-- `D` is what of an event is only handed on. -/
inductive Terminal (D : Type) where
  | completed (kind : FinishKind) (details : D)
  | failed (code : ErrorCode) (phase : FailurePhase) (errorId : Option Text) (details : D)
  | deferred (taskId : Text) (admissionUncertain : Bool)

inductive Event (D : Type) where
  | text (delta : TextDelta)
  | terminal (event : Terminal D)
  | unsupported (typeName : Text)

/-! ## Reading the stream -/

structure Reading (D : Type) where
  prefixDecided : Bool := false
  prefixBuffer : Text := []
  voiceRequested : Bool := false
  rawParts : List Text := []
  terminal : Option (Terminal D) := none

namespace Reading

variable {D : Type}

/-- `_append_visible`: what is shown is kept, in one order. -/
def appendVisible (reading : Reading D) (text : Text) : Reading D :=
  if text = [] then reading else { reading with rawParts := reading.rawParts ++ [text] }

/-- A chunk of text. -/
def readText (reading : Reading D) (text : Text) : Reading D :=
  if reading.prefixDecided then reading.appendVisible text
  else
    let prefixBuffer := reading.prefixBuffer ++ text
    let stripped := lstrip prefixBuffer
    if stripped <+: voiceTag ∧ stripped.length < voiceTag.length then
      { reading with prefixBuffer }
    else if voiceTag <+: stripped then
      ({ reading with voiceRequested := true, prefixDecided := true, prefixBuffer := []
         }).appendVisible (lstrip (stripped.drop voiceTag.length))
    else
      ({ reading with prefixDecided := true, prefixBuffer := [] }).appendVisible prefixBuffer

/-- One turn of the loop. -/
def take (reading : Reading D) (event : Event D) : Except Text (Reading D) :=
  match reading.terminal, event with
  | some _, _ => .error "Router emitted an event after its terminal event".toList
  | none, .text delta => .ok (reading.readText delta.text)
  | none, .terminal event => .ok { reading with terminal := some event }
  | none, .unsupported typeName => .error ("Unsupported router event: ".toList ++ typeName)

/-- The whole stream, with the terminal event or the error that is raised. -/
def stream (reading : Reading D) : List (Event D) → Reading D × Except Text (Terminal D)
  | [] =>
    match reading.terminal with
    | some event => (reading, .ok event)
    | none => (reading, .error "Router ended without a terminal event".toList)
  | event :: rest =>
    match reading.take event with
    | .ok reading => reading.stream rest
    | .error error => (reading, .error error)

/-- A tag that never became whole is text. -/
def flush (reading : Reading D) : Reading D :=
  if ¬ reading.prefixDecided ∧ reading.prefixBuffer ≠ [] then
    reading.appendVisible reading.prefixBuffer
  else reading

end Reading

/-! ## Outcomes -/

/-- `R` is the receipt of the renderer. -/
inductive Outcome (D R : Type) where
  | completeDelivery (contentText displayedText : Text) (completion : Terminal D)
      (voiceRequested : Bool) (receipt : R)
  | partialDelivery (contentText displayedText : Text) (terminal : Terminal D)
      (voiceRequested : Bool) (receipt : R)
  | failedDelivery (errorCode : ErrorCode) (displayedText : Text) (receipt : R)
      (upstreamErrorId : Option Text)
  | deferredDelivery (taskId displayedText : Text) (receipt : R) (admissionUncertain : Bool)

/-- What the renderer is asked to finalize. -/
structure Finalization (Actions : Type) where
  displayedText : Text
  title : Text
  actions : Option Actions

/-- `_append_block`. -/
def appendBlock (text block : Text) : Text :=
  if block = [] then text
  else if block.head? = some '\n' then text ++ block
  else text ++ "\n\n".toList ++ block

/-- The notice under an answer that a limit ended. -/
def finishNotice : FinishKind → Text
  | .maxTokens => "⚠️ _Ответ был обрезан из-за ограничения длины._".toList
  | .safety | .recitation => "⚠️ _Ответ был прерван фильтром безопасности._".toList
  | .stop | .other => []

/-- The notice under an answer that an error ended. -/
def failureNotice (code : ErrorCode) : Text :=
  if code = .timeout then "⚠️ _(ответ был прерван по таймауту)_".toList
  else "⚠️ _(ответ был прерван из-за ошибки сервера)_".toList

def deferredNotice (admissionUncertain : Bool) : Text :=
  if admissionUncertain then
    "⏳ Уточняется статус запроса. Подтверждения постановки в очередь пока нет.".toList
  else
    "⏳ Серверы AI временно перегружены. Я отправлю ответ, как только они освободятся.".toList

section

variable {D R Actions : Type}

-- `user_message_for_error_code`.
variable (userMessage : ErrorCode → Text)

/-- What is finalized and what is returned with the receipt, after the terminal event. -/
def conclude (prepared : PreparedPresentation Actions) (voiceRequested : Bool) :
    Terminal D → Finalization Actions × (R → Outcome D R)
  | .deferred taskId uncertain =>
    let displayed := deferredNotice uncertain
    (⟨displayed, prepared.longReadTitle, if uncertain then none else prepared.failureActions⟩,
      fun receipt => .deferredDelivery taskId displayed receipt uncertain)
  | .failed code .beforeText errorId _ =>
    let displayed := userMessage code
    (⟨displayed, prepared.longReadTitle, prepared.failureActions⟩,
      fun receipt => .failedDelivery code displayed receipt errorId)
  | .failed code .afterText errorId details =>
    if prepared.contentText = [] then emptyResponse
    else
      let displayed := prepared.displayPrefix ++
        appendBlock prepared.contentText (failureNotice code)
      (⟨displayed, prepared.longReadTitle, prepared.recoveryActions⟩,
        .partialDelivery prepared.contentText displayed
          (.failed code .afterText errorId details) voiceRequested)
  | .completed kind details =>
    if prepared.contentText = [] then emptyResponse
    else
      let answered := prepared.displayPrefix ++ appendBlock prepared.contentText prepared.footer
      let notice := finishNotice kind
      if notice = [] then
        (⟨answered, prepared.longReadTitle, prepared.actions⟩,
          .completeDelivery prepared.contentText answered (.completed kind details)
            voiceRequested)
      else
        let displayed := appendBlock answered notice
        (⟨displayed, prepared.longReadTitle, prepared.actions⟩,
          .partialDelivery prepared.contentText displayed (.completed kind details)
            voiceRequested)
where
  emptyResponse : Finalization Actions × (R → Outcome D R) :=
    let displayed := userMessage .emptyResponse
    (⟨displayed, prepared.longReadTitle, prepared.failureActions⟩,
      fun receipt => .failedDelivery .emptyResponse displayed receipt none)

/-- What a run did and what it gives back. -/
structure Delivered (D R Actions : Type) where
  appended : List Text
  voiceRequested : Bool
  finalized : List (Finalization Actions)
  returned : Except Text (R → Outcome D R)

/-- `AIStreamCoordinator.run`, without its feedback and its callbacks. -/
def run (digest : Text → Text) (presentation : TelegramPresentation Actions)
    (events : List (Event D)) : Delivered D R Actions :=
  match ({} : Reading D).stream events with
  | (reading, .error error) => ⟨reading.rawParts, reading.voiceRequested, [], .error error⟩
  | (reading, .ok terminal) =>
    let reading := reading.flush
    let prepared := presentation.prepare digest reading.rawParts.flatten
    let (finalization, outcome) := conclude userMessage prepared reading.voiceRequested terminal
    ⟨reading.rawParts, reading.voiceRequested, [finalization], .ok outcome⟩

end

end BobbyBotique.Delivery.Stream
