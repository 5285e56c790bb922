import BobbyBotique.Context.Turns
import Mathlib.Algebra.GroupWithZero.Nat

/-!
# The context assembler

The history is cut to the tokens that are left, what was dropped is summarized,
and the summary, the retained turns and the current turn make the history that
the provider receives.
-/

namespace BobbyBotique.Context

variable {P : Type}

def responseReserve : Int := 12000

def summaryBudget : Nat := 4000

def minHistoryMessages : Nat := 4

def llmSummaryTokenThreshold : Nat := 30000

/-- The length of a text in UTF-8. -/
def byteLength (text : Text) : Nat := (text.map fun c => c.utf8Size).sum

/-- `estimate_tokens_cyrillic`. -/
def estimateTokens (text : Text) : Nat :=
  if text = [] then 0 else max (byteLength text / 3) 1

/-- The longest prefix that fits into so many bytes. -/
def prefixWithin : Nat → Text → Text
  | _, [] => []
  | bytes, c :: rest =>
    if c.utf8Size ≤ bytes then c :: prefixWithin (bytes - c.utf8Size) rest else []

/-- The last loop of `truncate_to_token_budget`, over a prefix read from its end. -/
def shrinkToBudget (tokenLimit : Nat) (ending : Text) : Text → Text
  | [] => ending
  | last :: kept =>
    let result := (last :: kept).reverse ++ ending
    if estimateTokens result ≤ tokenLimit then result else shrinkToBudget tokenLimit ending kept

/-- `truncate_to_token_budget` with its default suffix. -/
def truncateToTokenBudget (text : Text) (tokenLimit : Nat) : Text :=
  if estimateTokens text ≤ tokenLimit then text
  else if tokenLimit = 0 then []
  else
    let ending := "...".toList
    shrinkToBudget tokenLimit ending
      (prefixWithin (tokenLimit * 3 - byteLength ending) text).reverse

/-- The controlled texts, and how texts are parts of messages. -/
structure Wording (P : Type) where
  /-- `context.summary.preamble` with its summary. -/
  summaryPreamble : Text → Text
  summaryAck : Text
  ofText : Text → P
  /-- The text of a part that is a string or has a text entry. -/
  partText : P → Option Text

/-- `_extract_text`. -/
def extractText (wording : Wording P) (turn : Turn P) : Text :=
  if turn.parts = [] then turn.content
  else [' '].intercalate (turn.parts.filterMap wording.partText)

/-- `_summary_token_cost`. -/
def summaryTokenCost (wording : Wording P) (summary : Text) : Nat :=
  estimateTokens (wording.summaryPreamble summary) + estimateTokens wording.summaryAck

structure TokenBudget where
  total : Int
  systemPrompt : Int
  summary : Int
  history : Int
  userMessage : Int

def TokenBudget.availableForHistory (budget : TokenBudget) : Int :=
  max 0 (budget.total -
    (budget.systemPrompt + budget.summary + budget.userMessage + responseReserve))

/-! ## The history that fits -/

/-- `" | ".join(texts[-count:])` after a heading. -/
def recentLine (heading : String) (texts : List Text) (count : Nat) : Text :=
  heading.toList ++ " | ".toList.intercalate (texts.drop (texts.length - count))

/-- The first 150 letters of a text. -/
def snippetOf (text : Text) : Text :=
  strip (text.take 150) ++ if 150 < text.length then "...".toList else []

/-- `_create_summary_local`. -/
def createSummaryLocal (wording : Wording P) (dropped : List (Turn P))
    (existingSummary : Option Text) : Option Text :=
  if dropped = [] then existingSummary
  else
    let snippets (role : String) := dropped.filterMap fun turn =>
      let text := extractText wording turn
      if text ≠ [] ∧ turn.role = some role then some (snippetOf text) else none
    let questions := snippets "user"
    let points := snippets "model"
    let parts :=
      (match existingSummary.filter (· ≠ []) with
        | some summary => [strip summary]
        | none => []) ++
      (if questions ≠ [] then [recentLine "Темы пользователя: " questions 5] else []) ++
      (if points ≠ [] then [recentLine "Ключевые ответы: " points 3] else [])
    if parts = [] then none
    else
      let summary := ['\n'].intercalate parts
      some (if estimateTokens summary > summaryBudget
        then truncateToTokenBudget summary summaryBudget else summary)

/-- The loop of `_fit_history` from the last message back to the first one it keeps. -/
def keptIndices (availableTokens : Int) (messageTokens : List Nat) :
    Nat → List Nat → Nat → List Nat
  | 0, kept, _ => kept
  | i + 1, kept, accumulated =>
    let tokens := messageTokens.getD i 0
    if ((accumulated + tokens : Nat) : Int) > availableTokens ∧
        minHistoryMessages ≤ kept.length then kept
    else keptIndices availableTokens messageTokens i (i :: kept) (accumulated + tokens)

structure Fitted where
  trimmedHistory : List Nat
  wasTruncated : Bool
  droppedCount : Nat
  summary : Option Text

/-- `_fit_history`. -/
def fitHistory (wording : Wording P) (memory : Memory P) (history : List Nat)
    (availableTokens : Int) (existingSummary : Option Text) : Fitted :=
  if history = [] then ⟨[], false, 0, existingSummary⟩
  else
    let messageTokens := history.map fun message =>
      estimateTokens (extractText wording (memory.read message))
    if (messageTokens.sum : Int) ≤ availableTokens then ⟨history, false, 0, existingSummary⟩
    else
      let kept := keptIndices availableTokens messageTokens history.length [] 0
      let firstKept := kept.headD history.length
      let droppedMessages := history.take firstKept
      ⟨kept.filterMap fun i => history[i]?, true, droppedMessages.length,
        createSummaryLocal wording (droppedMessages.map memory.read) existingSummary⟩

/-- The loop keeps a range that ends with the last message. -/
theorem keptIndices_range (availableTokens : Int) (messageTokens : List Nat)
    {i length : Nat} (bound : i ≤ length) (accumulated : Nat) :
    ∃ start ≤ i, keptIndices availableTokens messageTokens i (List.range' i (length - i))
      accumulated = List.range' start (length - start) := by
  induction i generalizing accumulated with
  | zero => exact ⟨0, le_refl _, rfl⟩
  | succ i ih =>
    rw [keptIndices]
    split
    · exact ⟨i + 1, le_refl _, rfl⟩
    · have grown : i :: List.range' (i + 1) (length - (i + 1)) =
          List.range' i (length - i) := by
        rw [show length - i = length - (i + 1) + 1 by omega, List.range'_succ]
      rw [grown]
      obtain ⟨start, before, same⟩ := ih (Nat.le_of_succ_le bound)
        (accumulated + messageTokens.getD i 0)
      exact ⟨start, Nat.le_succ_of_le before, same⟩

theorem filterMap_range' {A : Type} (items : List A) {start count : Nat}
    (whole : start + count = items.length) :
    ((List.range' start count).filterMap fun i => items[i]?) = items.drop start := by
  induction count generalizing start with
  | zero => exact (List.drop_eq_nil_of_le (le_of_eq whole.symm)).symm
  | succ count ih =>
    have inside : start < items.length := by omega
    rw [List.range'_succ, List.filterMap_cons, List.getElem?_eq_getElem inside,
      List.drop_eq_getElem_cons inside]
    exact congrArg (items[start] :: ·) (ih (by omega))

/-- What is kept are the last messages. -/
theorem fitHistory_suffix (wording : Wording P) (memory : Memory P) (history : List Nat)
    (availableTokens : Int) (existingSummary : Option Text) :
    ∃ start ≤ history.length,
      (fitHistory wording memory history availableTokens existingSummary).trimmedHistory =
        history.drop start ∧
      ((fitHistory wording memory history availableTokens existingSummary).wasTruncated = false →
        start = 0) := by
  unfold fitHistory
  split
  · next empty => exact ⟨0, Nat.zero_le _, by rw [empty]; rfl, fun _ => rfl⟩
  · dsimp only
    split
    · exact ⟨0, Nat.zero_le _, rfl, fun _ => rfl⟩
    · obtain ⟨start, before, same⟩ := keptIndices_range availableTokens
        (history.map fun message => estimateTokens (extractText wording (memory.read message)))
        (le_refl history.length) 0
      refine ⟨start, before, ?_, fun whole => nomatch whole⟩
      rw [Nat.sub_self, List.range'_zero] at same
      dsimp only
      rw [same]
      exact filterMap_range' history (Nat.add_sub_of_le before)

/-! ## The final history -/

/-- The messages of the summary exchange. -/
def summaryTurns (wording : Wording P) (summary : Option Text) : List (Turn P) :=
  match summary.filter (· ≠ []) with
  | some summary =>
    [⟨some "user", [wording.ofText (wording.summaryPreamble summary)], []⟩,
      ⟨some "model", [wording.ofText wording.summaryAck], []⟩]
  | none => []

/-- The message of the current turn; without a text the caller has appended it already. -/
def userTurns (wording : Wording P) (userMessage : Option Text) (userParts : Option (List P)) :
    List (Turn P) :=
  match userMessage with
  | none => []
  | some text =>
    let stripped := strip text
    [⟨some "user",
      userParts.getD [wording.ofText (if stripped ≠ [] then stripped else "...".toList)], []⟩]

/-- New message objects, one after the other. -/
def newMessages (memory : Memory P) : List (Turn P) → Memory P × List Nat
  | [] => (memory, [])
  | turn :: rest =>
    let (after, refs) := newMessages (memory.newMessage turn) rest
    (after, memory.next :: refs)

/-- `_build_final_history`. -/
def buildFinalHistory (wording : Wording P) (memory : Memory P) (trimmedHistory : List Nat)
    (summary : Option Text) (userMessage : Option Text) (userParts : Option Nat) :
    Memory P × List Nat :=
  let (memory, preamble) := newMessages memory (summaryTurns wording summary)
  let parts := userParts.map fun list => (memory.partLists[list]?).getD []
  let (memory, current) := newMessages memory (userTurns wording userMessage parts)
  fixRoleAlternation memory (preamble ++ trimmedHistory ++ current)

/-- What a caller hands over: its memory, and references to what is there. -/
structure Conversation (P : Type) where
  memory : Memory P
  history : List Nat
  userParts : Option Nat
  present : ∀ message ∈ history, message < memory.next
  listed : ∀ list ∈ userParts, list < memory.partLists.length

structure Request where
  userMessage : Option Text
  systemInstruction : Text
  existingSummary : Option Text
  tokenBudget : Int

/-- The result, with references into the memory that the call leaves. -/
structure AssembledContext (P : Type) where
  memory : Memory P
  history : List Nat
  retainedHistory : List Nat
  summary : Option Text
  budget : TokenBudget
  wasTruncated : Bool
  droppedMessages : List Nat
  messagesDropped : Nat
  llmSummarizationScheduled : Bool

def tokensOf (wording : Wording P) (memory : Memory P) (messages : List Nat) : Nat :=
  (messages.map fun message => estimateTokens (extractText wording (memory.read message))).sum

/-- The summary that `assemble` starts from, cut to its budget. -/
def Request.summary (request : Request) : Option Text :=
  request.existingSummary.map fun summary =>
    if summary ≠ [] then truncateToTokenBudget summary summaryBudget else summary

/-- The budget once the fixed costs are known. -/
def Request.budget (wording : Wording P) (request : Request) : TokenBudget where
  total := request.tokenBudget
  systemPrompt := estimateTokens request.systemInstruction
  summary :=
    if (request.existingSummary.getD []) ≠ [] then
      summaryTokenCost wording (request.summary.getD []) else 0
  history := 0
  userMessage := estimateTokens (request.userMessage.getD [])

/-- The tokens that `_fit_history` may fill. -/
def Request.available (wording : Wording P) (request : Request) (historyTokens : Nat) : Int :=
  let budget := request.budget wording
  let available := budget.availableForHistory
  if (historyTokens : Int) > available then
    let allowance : Int := summaryBudget + summaryTokenCost wording []
    max 0 (available - max 0 (allowance - budget.summary))
  else available

def assemble (wording : Wording P) (conversation : Conversation P) (request : Request) :
    AssembledContext P :=
  let before := conversation.memory
  let history := conversation.history
  let available := request.available wording (tokensOf wording before history)
  let fitted := fitHistory wording before history available request.summary
  let newSummary := fitted.summary
  let budget := request.budget wording
  let summaryTokens : Int :=
    if (newSummary.getD []) ≠ [] ∧ newSummary ≠ request.summary then
      summaryTokenCost wording (newSummary.getD []) else budget.summary
  let droppedMessages :=
    if fitted.wasTruncated then history.take (history.length - fitted.trimmedHistory.length)
    else []
  let (memory, finalHistory) := buildFinalHistory wording before fitted.trimmedHistory newSummary
    request.userMessage conversation.userParts
  let (after, retained) := newMessages memory (fitted.trimmedHistory.map memory.read)
  { memory := after
    history := finalHistory
    retainedHistory := retained
    summary := newSummary
    budget :=
      { budget with
        summary := summaryTokens
        history := tokensOf wording memory finalHistory - summaryTokens - budget.userMessage }
    wasTruncated := fitted.wasTruncated
    droppedMessages
    messagesDropped := fitted.droppedCount
    llmSummarizationScheduled :=
      fitted.wasTruncated &&
        decide (tokensOf wording memory droppedMessages ≥ llmSummaryTokenThreshold) }

/-! ## The conversation is kept -/

theorem newMessages_spec (memory : Memory P) (turns : List (Turn P)) :
    Memory.Extends memory (newMessages memory turns).1 ∧
      (newMessages memory turns).2.map (newMessages memory turns).1.read = turns ∧
      ∀ ref ∈ (newMessages memory turns).2, ref < (newMessages memory turns).1.next := by
  induction turns generalizing memory with
  | nil => exact ⟨.refl memory, rfl, fun ref member => nomatch member⟩
  | cons turn rest ih =>
    obtain ⟨grown, said, valid⟩ := ih (memory.newMessage turn)
    have room := memory.next_lt_newMessage turn
    dsimp only [newMessages]
    refine ⟨(Memory.extends_newMessage memory turn).trans grown, ?_, ?_⟩
    · rw [List.map_cons, said, grown.read room, Memory.read_newMessage]
    · rintro ref (_ | ⟨_, member⟩)
      · exact room.trans_le grown.next_le
      · exact valid ref member

/-- The turns that the provider receives, before neighbours are merged. -/
def finalTurns (wording : Wording P) (memory : Memory P) (trimmedHistory : List Nat)
    (summary : Option Text) (userMessage : Option Text) (userParts : Option Nat) :
    List (Turn P) :=
  summaryTurns wording summary ++ trimmedHistory.map memory.read ++
    userTurns wording userMessage (userParts.map fun list => (memory.partLists[list]?).getD [])

theorem buildFinalHistory_spec (wording : Wording P) (memory : Memory P) {trimmed : List Nat}
    (present : ∀ ref ∈ trimmed, ref < memory.next) (summary userMessage : Option Text)
    {userParts : Option Nat} (listed : ∀ list ∈ userParts, list < memory.partLists.length) :
    Memory.Extends memory
        (buildFinalHistory wording memory trimmed summary userMessage userParts).1 ∧
      (∀ ref ∈ (buildFinalHistory wording memory trimmed summary userMessage userParts).2,
        ref < (buildFinalHistory wording memory trimmed summary userMessage userParts).1.next) ∧
      (buildFinalHistory wording memory trimmed summary userMessage userParts).2.map
          (buildFinalHistory wording memory trimmed summary userMessage userParts).1.read =
        mergeAll (finalTurns wording memory trimmed summary userMessage userParts) := by
  dsimp only [buildFinalHistory]
  obtain ⟨grown, said, valid⟩ := newMessages_spec memory (summaryTurns wording summary)
  generalize newMessages memory (summaryTurns wording summary) = first at grown said valid ⊢
  have parts : (userParts.map fun list => (first.1.partLists[list]?).getD []) =
      userParts.map fun list => (memory.partLists[list]?).getD [] := by
    cases userParts with
    | none => rfl
    | some list =>
      obtain ⟨more, same⟩ := grown.partLists
      rw [Option.map_some, Option.map_some, ← same, List.getElem?_append_left (listed list rfl)]
  rw [parts]
  obtain ⟨grown', said', valid'⟩ := newMessages_spec first.1 (userTurns wording userMessage
    (userParts.map fun list => (memory.partLists[list]?).getD []))
  generalize newMessages first.1 (userTurns wording userMessage
    (userParts.map fun list => (memory.partLists[list]?).getD [])) = second at grown' said' valid' ⊢
  have old : ∀ ref ∈ first.2 ++ trimmed ++ second.2, ref < second.1.next := by
    intro ref member
    rw [List.mem_append, List.mem_append] at member
    rcases member with (early | kept) | late
    · exact (valid ref early).trans_le grown'.next_le
    · exact (present ref kept).trans_le (grown.next_le.trans grown'.next_le)
    · exact valid' ref late
  obtain ⟨fixed, inside, merged⟩ := fixRoleAlternation_spec second.1 old
  refine ⟨(grown.trans grown').trans fixed, inside, merged.trans ?_⟩
  have turns : (first.2 ++ trimmed ++ second.2).map second.1.read =
      finalTurns wording memory trimmed summary userMessage userParts := by
    rw [List.map_append, List.map_append, grown'.map_read valid, said,
      (grown.trans grown').map_read present, said']
    rfl
  rw [turns]

/-- What one call returns, beside the conversation that it was given. -/
structure Keeps (wording : Wording P) (conversation : Conversation P) (request : Request)
    (result : AssembledContext P) : Prop where
  /-- The messages and the lists of parts of the caller are as they were. -/
  unmodified : Memory.Extends conversation.memory result.memory
  /-- What is dropped and what is retained make up the history. -/
  complete : (result.droppedMessages ++ result.retainedHistory).map result.memory.read =
    conversation.history.map conversation.memory.read
  /-- The parts in their order: the summary, the retained turns and the current one. -/
  ordered : (result.history.map result.memory.read).flatMap Turn.spread =
    (summaryTurns wording result.summary ++ result.retainedHistory.map result.memory.read ++
      userTurns wording request.userMessage
        (conversation.userParts.map fun list =>
          (conversation.memory.partLists[list]?).getD [])).flatMap Turn.spread
  alternating : Alternating (result.history.map result.memory.read)
  /-- The role fix has nothing left to do. -/
  settled : (fixRoleAlternation result.memory result.history).2.map
      (fixRoleAlternation result.memory result.history).1.read =
    result.history.map result.memory.read

/-- The dropped messages and the kept ones make up the history. -/
theorem dropped_append_trimmed (wording : Wording P) (memory : Memory P) (history : List Nat)
    (availableTokens : Int) (existingSummary : Option Text) :
    (if (fitHistory wording memory history availableTokens existingSummary).wasTruncated then
        history.take (history.length -
          (fitHistory wording memory history availableTokens existingSummary).trimmedHistory.length)
      else []) ++
      (fitHistory wording memory history availableTokens existingSummary).trimmedHistory =
        history := by
  obtain ⟨start, before, kept, whole⟩ :=
    fitHistory_suffix wording memory history availableTokens existingSummary
  rw [kept]
  split
  · rw [List.length_drop, Nat.sub_sub_self before, List.take_append_drop]
  · next untouched =>
      rw [whole (Bool.eq_false_iff.mpr untouched)]
      rfl

/--
For every conversation, summary, budget, message and list of parts, `assemble`
keeps the conversation and leaves what its caller holds as it was.
-/
theorem assemble_keeps (wording : Wording P) (conversation : Conversation P) (request : Request) :
    Keeps wording conversation request (assemble wording conversation request) := by
  have whole := dropped_append_trimmed wording conversation.memory conversation.history
    (request.available wording (tokensOf wording conversation.memory conversation.history))
    request.summary
  dsimp only [assemble]
  generalize fitHistory wording conversation.memory conversation.history
    (request.available wording (tokensOf wording conversation.memory conversation.history))
    request.summary = fitted at whole ⊢
  have present : ∀ ref ∈ fitted.trimmedHistory, ref < conversation.memory.next := by
    intro ref member
    exact conversation.present ref (whole ▸ List.mem_append_right _ member)
  obtain ⟨grown, inside, merged⟩ := buildFinalHistory_spec wording conversation.memory present
    fitted.summary request.userMessage conversation.listed
  generalize buildFinalHistory wording conversation.memory fitted.trimmedHistory fitted.summary
    request.userMessage conversation.userParts = built at grown inside merged ⊢
  obtain ⟨copied, said, valid⟩ :=
    newMessages_spec built.1 (fitted.trimmedHistory.map built.1.read)
  generalize newMessages built.1 (fitted.trimmedHistory.map built.1.read) = retained
    at copied said valid ⊢
  have final : built.2.map retained.1.read = built.2.map built.1.read := copied.map_read inside
  have kept : fitted.trimmedHistory.map built.1.read =
      fitted.trimmedHistory.map conversation.memory.read := grown.map_read present
  constructor
  · exact grown.trans copied
  · dsimp only
    rw [List.map_append, said, kept, (grown.trans copied).map_read fun ref member =>
      conversation.present ref (whole ▸ List.mem_append_left _ member), ← List.map_append, whole]
  · dsimp only
    rw [final, merged, mergeAll_spread, said, kept]
    rfl
  · dsimp only
    rw [final, merged]
    exact mergeAll_alternating _
  · dsimp only
    have valid' : ∀ ref ∈ built.2, ref < retained.1.next :=
      fun ref member => (inside ref member).trans_le copied.next_le
    rw [(fixRoleAlternation_spec retained.1 valid').2.2, final, merged]
    exact mergeAll_of_alternating (mergeAll_alternating _)

end BobbyBotique.Context
