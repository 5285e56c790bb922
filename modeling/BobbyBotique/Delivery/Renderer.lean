import BobbyBotique.Delivery.SplitText
import BobbyBotique.Foundation.Run

/-!
# The Telegram renderer

A finished text is shown as one message, as a reader article, as a Telegraph
page or in parts.  Everything outside the renderer is an environment: it
answers each call as it likes, and its answer may depend on all that was called
before.  Every call is logged with its answer.
-/

namespace BobbyBotique.Delivery

abbrev Text := List Char

inductive Button where
  | webApp (label url : Text)
  | link (label url : Text)
  | callback (label data : Text)
  deriving DecidableEq

abbrev Keyboard := List (List Button)

structure MessageRef where
  chatId : Int
  messageId : Int
  messageThreadId : Option Int
  deriving DecidableEq

/-- What is asked of the transport. -/
structure Showing where
  text : Text
  html : Bool
  replyMarkup : Option Keyboard
  deriving DecidableEq

/-- What the renderer looks for in the text of an error. -/
structure Failure where
  notModified : Bool
  rateLimited : Bool
  deriving DecidableEq

inductive Answer (A : Type) where
  | returned (value : A)
  | raised (error : Failure)
  | cancelled
  deriving DecidableEq

/-- A call of the renderer with its answer. -/
inductive Event where
  | edited (showing' : Showing) (answer : Answer Unit)
  | sent (showing' : Showing) (answer : Answer MessageRef)
  | stored (uid text : Text) (answer : Answer Bool)
  | published (title text : Text) (answer : Answer (Option Text))
  | submitted (uid title text : Text)
  | visible
  deriving DecidableEq

abbrev Log := List Event

/-- What the call has put before the reader. -/
def Event.shown : Event → Option Showing
  | .edited showing' (.returned _) => some showing'
  | .edited showing' (.raised error) => if error.notModified then some showing' else none
  | .sent showing' (.returned _) => some showing'
  | _ => none

def shown (log : Log) : List Showing := log.filterMap Event.shown

/-- The call gives the text to the reader storage or to Telegraph, now or in the background. -/
def Event.publishes : Event → Bool
  | .stored _ _ _ => true
  | .published _ _ _ => true
  | .submitted _ _ _ => true
  | _ => false

structure Environment where
  edit : Log → Showing → Answer Unit
  send : Log → Showing → Answer MessageRef
  currentRef : Log → MessageRef
  /-- The task is cancelled while it waits for the next attempt. -/
  interrupted : Log → Bool
  /-- The time since the last draft is over. -/
  debounced : Log → Bool
  storeLongMessage : Log → Text → Text → Answer Bool
  createTelegraphPage : Log → Text → Text → Answer (Option Text)

inductive Raised where
  | protocol
  | delivery
  | cancelled
  | other (error : Failure)
  deriving DecidableEq

abbrev Outcome (A : Type) := Except Raised A × Log

inductive DeliveryKind where
  | message
  | split
  | reader
  | telegraph
  deriving DecidableEq

structure Receipt where
  kind : DeliveryKind
  messageIds : List Int
  finalMessage : MessageRef
  publicationUrl : Option Text
  deriving DecidableEq

/-- The renderer's configuration and the text functions it uses. -/
structure Renderer where
  messageLimit : Nat
  webappBaseUrl : Text
  telegraphPublicationEnabled : Bool
  privateContent : Bool
  minChunkSize : Nat
  /-- `_formatted_html`. -/
  formattedHtml : Text → Text
  /-- `strip_hallucinated_tool_trace`. -/
  stripTrace : Text → Text
  word : WordChars

variable (env : Environment) (renderer : Renderer)

/-- `_edit_with_retry`, with the attempts it has left. -/
def editWithRetry (message : Showing) : Nat → Log → Outcome Unit
  | 0, log => (.error .delivery, log)
  | attempts + 1, log =>
    let answer := env.edit log message
    let log := log ++ [.edited message answer]
    match answer with
    | .returned _ => (.ok (), log)
    | .cancelled => (.error .cancelled, log)
    | .raised error =>
      if error.notModified then (.ok (), log)
      else if !error.rateLimited || attempts == 0 then (.error (.other error), log)
      else if env.interrupted log then (.error .cancelled, log)
      else editWithRetry message attempts log

def maxAttempts : Nat := 3

/-- The note of the first visible text, where the caller wants one. -/
def noted (visible : Bool) (log : Log) : Log := if visible then log ++ [.visible] else log

/-- The recovery of `_replace_or_send`: the text is sent as a new message. -/
def sendNew (message : Showing) (visible : Bool) (log : Log) : Outcome MessageRef :=
  let answer := env.send log message
  let log := log ++ [.sent message answer]
  match answer with
  | .returned ref => (.ok ref, noted visible log)
  | .cancelled => (.error .cancelled, log)
  | .raised _ => (.error .delivery, log)

/-- `_replace_or_send`. -/
def replaceOrSend (message : Showing) (visible : Bool) (log : Log) : Outcome MessageRef :=
  match editWithRetry env message maxAttempts log with
  | (.ok _, log) => (.ok (env.currentRef log), noted visible log)
  | (.error .cancelled, log) => (.error .cancelled, log)
  | (.error _, log) => sendNew env message visible log

/-- The parts behind the first; the last one carries the keyboard. -/
def sendParts (actions : Option Keyboard) : List Text → Log → Outcome (List MessageRef)
  | [], log => (.ok [], log)
  | part :: rest, log =>
    let message : Showing := ⟨part, true, if rest = [] then actions else none⟩
    let answer := env.send log message
    let log := log ++ [.sent message answer]
    match answer with
    | .cancelled => (.error .cancelled, log)
    | .raised _ => (.error .delivery, log)
    | .returned ref =>
      match sendParts actions rest log with
      | (.ok refs, log) => (.ok (ref :: refs), log)
      | (.error raised, log) => (.error raised, log)

/-- `_split`. -/
def split (displayedText : Text) (actions : Option Keyboard) (visible : Bool) (log : Log) :
    Outcome Receipt :=
  match splitTextSafe renderer.word (renderer.formattedHtml displayedText)
    renderer.messageLimit with
  | [] => (.error .delivery, log)
  | first :: rest =>
    match replaceOrSend env ⟨first, true, if rest = [] then actions else none⟩ visible log with
    | (.error raised, log) => (.error raised, log)
    | (.ok firstRef, log) =>
      match sendParts env actions rest log with
      | (.error raised, log) => (.error raised, log)
      | (.ok refs, log) =>
        (.ok
          { kind := if refs = [] then .message else .split
            messageIds := (firstRef :: refs).map MessageRef.messageId
            finalMessage := refs.getLast?.getD firstRef
            publicationUrl := none }, log)

/-- `wrap_in_expandable_blockquote` without a label. -/
def wrapInExpandableBlockquote (content : Text) : Text :=
  "<blockquote expandable>".toList ++ strip content ++ "</blockquote>".toList

/-- `_summary`. -/
def summary (displayedText : Text) : Text :=
  let cut := strip (displayedText.take 800)
  wrapInExpandableBlockquote (renderer.formattedHtml
    (if displayedText.length > 800 then cut ++ "…".toList else cut))

/-- `_prepend_row`. -/
def prependRow (base : Option Keyboard) (row : List Button) : Keyboard := row :: base.getD []

def readerUrl (uid : Text) : Text :=
  renderer.webappBaseUrl ++ "/webapp/reader?id=".toList ++ uid

/-- The reader's message: the summary, the link and the button. -/
def readerShowing (uid displayedText : Text) (actions : Option Keyboard) : Showing where
  text := summary renderer displayedText ++
    "\n\n<i>(...текст превышает лимит. Продолжение доступно по кнопке <b>«Развернуть статью»</b> 👇)</i> <a href=\"".toList ++
    readerUrl renderer uid ++ "\">&#8203;</a>".toList
  html := true
  replyMarkup := some (prependRow actions
    [.webApp "📄 Развернуть статью (Mini App)".toList (readerUrl renderer uid)])

/-- The message of a published page: the summary, the link and the button. -/
def telegraphShowing (url displayedText : Text) (actions : Option Keyboard) : Showing where
  text := summary renderer displayedText ++ "\n\n📖 <a href=\"".toList ++ url ++
    "\">Читать статью (Instant View)</a>".toList
  html := true
  replyMarkup := some (prependRow actions [.link "📖 Открыть статью".toList url])

/-- `_reader`; without a receipt the text is still to be shown. -/
def reader (uid displayedText title : Text) (actions : Option Keyboard) (visible : Bool)
    (log : Log) : Outcome (Option Receipt) :=
  let answer := env.storeLongMessage log uid displayedText
  let log := log ++ [.stored uid displayedText answer]
  match answer with
  | .cancelled => (.error .cancelled, log)
  | .raised _ => (.ok none, log)
  | .returned false => (.ok none, log)
  | .returned true =>
    match replaceOrSend env (readerShowing renderer uid displayedText actions) visible log with
    | (.error .delivery, log) => (.ok none, log)
    | (.error raised, log) => (.error raised, log)
    | (.ok ref, log) =>
      (.ok (some
        { kind := .reader
          messageIds := [ref.messageId]
          finalMessage := ref
          publicationUrl := some (readerUrl renderer uid) }),
        if renderer.telegraphPublicationEnabled then
          log ++ [.submitted uid title displayedText]
        else log)

/-- `_telegraph`; without a receipt the text is still to be shown. -/
def telegraph (displayedText title : Text) (actions : Option Keyboard) (visible : Bool)
    (log : Log) : Outcome (Option Receipt) :=
  if !renderer.telegraphPublicationEnabled then (.ok none, log)
  else
    let answer := env.createTelegraphPage log title displayedText
    let log := log ++ [.published title displayedText answer]
    match answer with
    | .cancelled => (.error .cancelled, log)
    | .raised _ => (.ok none, log)
    | .returned none => (.ok none, log)
    | .returned (some []) => (.ok none, log)
    | .returned (some (first :: rest)) =>
      match replaceOrSend env
        (telegraphShowing renderer (first :: rest) displayedText actions) visible log with
      | (.error .delivery, log) => (.ok none, log)
      | (.error raised, log) => (.error raised, log)
      | (.ok ref, log) =>
        (.ok (some
          { kind := .telegraph
            messageIds := [ref.messageId]
            finalMessage := ref
            publicationUrl := some (first :: rest) }), log)

/-- A form is tried when it applies, and the next one when it has not shown the text. -/
def orElse (tried : Outcome (Option Receipt)) (next : Log → Outcome Receipt) : Outcome Receipt :=
  match tried with
  | (.error raised, log) => (.error raised, log)
  | (.ok (some receipt), log) => (.ok receipt, log)
  | (.ok none, log) => next log

/-- `_finalize`; the environment draws the reader's id. -/
def deliver (uid displayedText title : Text) (actions : Option Keyboard) (visible : Bool)
    (log : Log) : Outcome Receipt :=
  let formatted := renderer.formattedHtml displayedText
  if formatted.length ≤ renderer.messageLimit then
    match replaceOrSend env ⟨formatted, true, actions⟩ visible log with
    | (.error raised, log) => (.error raised, log)
    | (.ok ref, log) =>
      (.ok
        { kind := .message
          messageIds := [ref.messageId]
          finalMessage := ref
          publicationUrl := none }, log)
  else
    orElse
      (if renderer.webappBaseUrl ≠ [] ∧ renderer.privateContent = false then
        reader env renderer uid displayedText title actions visible log
      else (.ok none, log))
      fun log =>
        orElse
          (if renderer.privateContent = false then
            telegraph env renderer displayedText title actions visible log
          else (.ok none, log))
          fun log => split env renderer displayedText actions visible log

/-! ## Sessions -/

structure Session where
  opened : Bool := true
  draftText : Text := []
  pendingChars : Nat := 0
  longReadPending : Bool := false
  log : Log := []

/-- A draft that could not be shown is given up; only a cancellation is passed on. -/
def draftShown (result : Except Raised Unit) : Except Raised Unit :=
  match result with
  | .error .cancelled => .error .cancelled
  | _ => .ok ()

/-- `append`. -/
def append (session : Session) (text : Text) : Except Raised Unit × Session :=
  if !session.opened then (.error .protocol, session)
  else if text = [] then (.ok (), session)
  else
    let session :=
      { session with
        draftText := session.draftText ++ text
        pendingChars := session.pendingChars + text.length }
    let visibleDraft := renderer.stripTrace session.draftText
    if session.longReadPending then (.ok (), session)
    else if strip visibleDraft = [] then (.ok (), session)
    else
      let formatted := renderer.formattedHtml visibleDraft
      if formatted.length > renderer.messageLimit then
        let frozen := summary renderer visibleDraft ++
          "\n\n... 📝 <i>[Текст получается очень длинным, формирую статью]</i>".toList
        let (result, log) := editWithRetry env ⟨frozen, true, none⟩ maxAttempts session.log
        (draftShown result,
          { session with
            longReadPending := true
            log := noted result.isOk log })
      else if session.pendingChars ≥ renderer.minChunkSize ∧ env.debounced session.log then
        let (result, log) :=
          editWithRetry env ⟨formatted ++ " ▌".toList, true, none⟩ maxAttempts session.log
        (draftShown result,
          { session with
            pendingChars := if result.isOk then 0 else session.pendingChars
            log := noted result.isOk log })
      else (.ok (), session)

/-- `show_status`. -/
def showStatus (session : Session) (text : Text) (actions : Option Keyboard) :
    Except Raised Unit × Session :=
  if !session.opened then (.error .protocol, session)
  else
    let (result, log) := editWithRetry env ⟨text, false, actions⟩ maxAttempts session.log
    (draftShown result, { session with log := log })

/-- `finalize`. -/
def finalize (session : Session) (uid displayedText title : Text) (actions : Option Keyboard)
    (modelContent : Option Text) : Except Raised Receipt × Session :=
  if !session.opened then (.error .protocol, session)
  else if strip displayedText = [] then (.error .delivery, { session with opened := false })
  else
    let content := renderer.stripTrace (modelContent.getD session.draftText)
    let (result, log) := deliver env renderer uid displayedText title actions
      (decide (strip content ≠ [])) session.log
    (result, { session with opened := false, log := log })

/-- A call of a session. -/
inductive Call where
  | append (text : Text)
  | showStatus (text : Text) (actions : Option Keyboard)
  | finalize (uid displayedText title : Text) (actions : Option Keyboard)
      (modelContent : Option Text)

/-- What the call raises, if anything, and the session after it. -/
def call (session : Session) : Call → Option Raised × Session
  | .append text =>
    let (result, session) := append env renderer session text
    (match result with | .ok _ => none | .error raised => some raised, session)
  | .showStatus text actions =>
    let (result, session) := showStatus env session text actions
    (match result with | .ok _ => none | .error raised => some raised, session)
  | .finalize uid displayedText title actions modelContent =>
    let (result, session) :=
      finalize env renderer session uid displayedText title actions modelContent
    (match result with | .ok _ => none | .error raised => some raised, session)

/-- The session after a list of calls. -/
def calls (session : Session) (labels : List Call) : Session :=
  Run.run (fun session label => (call env renderer session label).2) session labels

/-! ## What a call adds to the log -/

/-- The outcome's log is the old one with new calls behind it. -/
def Adds {A : Type} (log : Log) (outcome : Outcome A) (post : Except Raised A → Log → Prop) :
    Prop :=
  ∃ new, outcome.2 = log ++ new ∧ post outcome.1 new

/-- No call of the log gives a text away. -/
def Confidential (log : Log) : Prop := ∀ event ∈ log, event.publishes = false

theorem Confidential.append {first second : Log} (front : Confidential first)
    (back : Confidential second) : Confidential (first ++ second) := by
  intro event member
  exact (List.mem_append.mp member).elim (front event) (back event)

theorem Confidential.single {event : Event} (kept : event.publishes = false) :
    Confidential [event] := by
  intro other member
  rw [List.mem_singleton.mp member]
  exact kept

@[simp] theorem shown_append (first second : Log) :
    shown (first ++ second) = shown first ++ shown second :=
  List.filterMap_append

/-- A message is shown once by a call that returns, and not at all by one that raises. -/
def ShownOnce {A : Type} (message : Showing) (result : Except Raised A) (new : Log) : Prop :=
  Confidential new ∧ shown new = if result.isOk then [message] else []

theorem editWithRetry_adds (message : Showing) (attempts : Nat) (log : Log) :
    Adds log (editWithRetry env message attempts log) (ShownOnce message) := by
  induction attempts generalizing log with
  | zero => exact ⟨[], by simp [editWithRetry], by simp [Confidential], rfl⟩
  | succ attempts ih =>
    unfold editWithRetry
    generalize env.edit log message = answer
    have single : Confidential [.edited message answer] := .single rfl
    cases answer with
    | returned | cancelled => exact ⟨_, rfl, single, rfl⟩
    | raised error =>
      dsimp only
      split
      · next unchanged =>
          refine ⟨_, rfl, single, ?_⟩
          simp [shown, Event.shown, unchanged, Except.isOk, Except.toBool]
      · next modified =>
          have unseen : shown [.edited message (.raised error)] = [] := by
            simp [shown, Event.shown, modified]
          split
          · exact ⟨_, rfl, single, unseen⟩
          · split
            · exact ⟨_, rfl, single, unseen⟩
            · obtain ⟨new, same, quiet, once⟩ := ih (log ++ [.edited message (.raised error)])
              refine ⟨.edited message (.raised error) :: new, ?_, single.append quiet, ?_⟩
              · rw [same, List.append_assoc]
                rfl
              · rw [← List.singleton_append, shown_append, unseen, List.nil_append]
                exact once

/-- A note of visible text shows nothing and gives nothing away. -/
theorem noted_adds (visible : Bool) (log : Log) :
    ∃ new, noted visible log = log ++ new ∧ Confidential new ∧ shown new = [] := by
  cases visible with
  | false => exact ⟨[], (List.append_nil log).symm, by simp [Confidential], rfl⟩
  | true => exact ⟨[.visible], rfl, .single rfl, rfl⟩

theorem sendNew_adds (message : Showing) (visible : Bool) (log : Log) :
    Adds log (sendNew env message visible log) (ShownOnce message) := by
  unfold sendNew
  generalize env.send log message = answer
  have told : Confidential [.sent message answer] := .single rfl
  cases answer with
  | returned ref =>
    obtain ⟨note, same, hushed, unseen⟩ :=
      noted_adds visible (log ++ [.sent message (.returned ref)])
    refine ⟨[.sent message (.returned ref)] ++ note, ?_, told.append hushed, ?_⟩
    · rw [← List.append_assoc]
      exact same
    · rw [shown_append, unseen]
      rfl
  | cancelled | raised => exact ⟨_, rfl, told, rfl⟩

theorem replaceOrSend_adds (message : Showing) (visible : Bool) (log : Log) :
    Adds log (replaceOrSend env message visible log) (ShownOnce message) := by
  obtain ⟨edits, same, quiet, once⟩ := editWithRetry_adds env message maxAttempts log
  unfold replaceOrSend
  generalize editWithRetry env message maxAttempts log = outcome at same once
  obtain ⟨result, later⟩ := outcome
  dsimp only at same once
  subst same
  cases result with
  | ok value =>
    obtain ⟨note, noted, hushed, unseen⟩ := noted_adds visible (log ++ edits)
    refine ⟨edits ++ note, ?_, quiet.append hushed, ?_⟩
    · rw [← List.append_assoc]
      exact noted
    · rw [shown_append, once, unseen]
      rfl
  | error raised =>
    have unseen : shown edits = [] := once
    have recover : Adds log (sendNew env message visible (log ++ edits)) (ShownOnce message) := by
      obtain ⟨new, same, told, sent⟩ := sendNew_adds env message visible (log ++ edits)
      refine ⟨edits ++ new, ?_, quiet.append told, ?_⟩
      · rw [same, List.append_assoc]
      · rw [shown_append, unseen, List.nil_append, sent]
    cases raised with
    | cancelled => exact ⟨edits, rfl, quiet, once⟩
    | protocol | delivery | other => exact recover

/-- The parts as they are to be shown: only the last one carries the keyboard. -/
def partShowings (actions : Option Keyboard) : List Text → List Showing
  | [] => []
  | part :: rest =>
    ⟨part, true, if rest = [] then actions else none⟩ :: partShowings actions rest

theorem partShowings_text (actions : Option Keyboard) (parts : List Text) :
    (partShowings actions parts).map Showing.text = parts := by
  induction parts with
  | nil => rfl
  | cons part rest ih => rw [partShowings, List.map_cons, ih]

/-- The parts sent are shown in their order; a call that returns has shown all of them. -/
theorem sendParts_adds (actions : Option Keyboard) (parts : List Text) (log : Log) :
    Adds log (sendParts env actions parts log) fun result new =>
      Confidential new ∧ ∀ refs, result = .ok refs →
        shown new = partShowings actions parts ∧ refs.length = parts.length := by
  induction parts generalizing log with
  | nil =>
    refine ⟨[], (List.append_nil log).symm, by simp [Confidential], ?_⟩
    rintro refs returned
    cases returned
    exact ⟨rfl, rfl⟩
  | cons part rest ih =>
    unfold sendParts
    dsimp only
    generalize env.send log _ = answer
    cases answer with
    | cancelled | raised => exact ⟨_, rfl, .single rfl, by rintro refs impossible; cases impossible⟩
    | returned ref =>
      dsimp only
      obtain ⟨new, same, quiet, all⟩ := ih (log ++
        [.sent ⟨part, true, if rest = [] then actions else none⟩ (.returned ref)])
      generalize sendParts env actions rest _ = outcome at same all
      obtain ⟨result, later⟩ := outcome
      dsimp only at same all
      subst same
      have first : Confidential
          [.sent ⟨part, true, if rest = [] then actions else none⟩ (.returned ref)] :=
        .single rfl
      have told := first.append quiet
      cases result with
      | error raised =>
        exact ⟨_, List.append_assoc .., told, by rintro refs impossible; cases impossible⟩
      | ok refs =>
        refine ⟨_, List.append_assoc .., told, ?_⟩
        rintro _ returned
        cases returned
        obtain ⟨shownRest, count⟩ := all refs rfl
        rw [shown_append, shownRest]
        exact ⟨rfl, congrArg (· + 1) count⟩

/-! ## One delivery -/

/-- A receipt with what was shown for it: the text in exactly one of its forms. -/
inductive Delivered (uid displayedText : Text) (actions : Option Keyboard) :
    Receipt → List Showing → Prop where
  | message (ref : MessageRef)
      (fits : (renderer.formattedHtml displayedText).length ≤ renderer.messageLimit) :
      Delivered uid displayedText actions ⟨.message, [ref.messageId], ref, none⟩
        [⟨renderer.formattedHtml displayedText, true, actions⟩]
  | reader (ref : MessageRef) (isPublic : renderer.privateContent = false) :
      Delivered uid displayedText actions
        ⟨.reader, [ref.messageId], ref, some (readerUrl renderer uid)⟩
        [readerShowing renderer uid displayedText actions]
  | telegraph (ref : MessageRef) (url : Text) (isPublic : renderer.privateContent = false) :
      Delivered uid displayedText actions ⟨.telegraph, [ref.messageId], ref, some url⟩
        [telegraphShowing renderer url displayedText actions]
  | split (first : MessageRef) (refs : List MessageRef)
      (count : refs.length + 1 = (splitTextSafe renderer.word
        (renderer.formattedHtml displayedText) renderer.messageLimit).length) :
      Delivered uid displayedText actions
        ⟨if refs = [] then .message else .split, (first :: refs).map MessageRef.messageId,
          refs.getLast?.getD first, none⟩
        (partShowings actions (splitTextSafe renderer.word
          (renderer.formattedHtml displayedText) renderer.messageLimit))

variable (uid displayedText title : Text) (actions : Option Keyboard) (visible : Bool)

theorem split_adds (log : Log) :
    Adds log (split env renderer displayedText actions visible log) fun result new =>
      Confidential new ∧ ∀ receipt, result = .ok receipt →
        Delivered renderer uid displayedText actions receipt (shown new) := by
  have delivered := @Delivered.split renderer uid displayedText actions
  unfold split
  generalize splitTextSafe renderer.word (renderer.formattedHtml displayedText)
    renderer.messageLimit = parts at delivered ⊢
  cases parts with
  | nil =>
    exact ⟨[], (List.append_nil log).symm, by simp [Confidential],
      by rintro receipt impossible; cases impossible⟩
  | cons first rest =>
    dsimp only
    obtain ⟨sent, same, quiet, once⟩ := replaceOrSend_adds env
      ⟨first, true, if rest = [] then actions else none⟩ visible log
    generalize replaceOrSend env _ visible log = outcome at same once
    obtain ⟨result, later⟩ := outcome
    dsimp only at same once
    subst same
    cases result with
    | error raised =>
      exact ⟨sent, rfl, quiet, by rintro receipt impossible; cases impossible⟩
    | ok firstRef =>
      dsimp only
      obtain ⟨more, same, hushed, all⟩ := sendParts_adds env actions rest (log ++ sent)
      generalize sendParts env actions rest (log ++ sent) = outcome at same all
      obtain ⟨result, later⟩ := outcome
      dsimp only at same all
      subst same
      cases result with
      | error raised =>
        exact ⟨sent ++ more, List.append_assoc .., quiet.append hushed,
          by rintro receipt impossible; cases impossible⟩
      | ok refs =>
        refine ⟨sent ++ more, List.append_assoc .., quiet.append hushed, ?_⟩
        rintro receipt returned
        cases returned
        obtain ⟨shownRest, count⟩ := all refs rfl
        rw [shown_append, once, shownRest]
        exact delivered firstRef refs (congrArg (· + 1) count)

/-- What a form that may be given up leaves: nothing shown, or its receipt. -/
def Tried (result : Except Raised (Option Receipt)) (new : Log) : Prop :=
  ∀ given, result = .ok given →
    given.elim (shown new = []) fun receipt =>
      Delivered renderer uid displayedText actions receipt (shown new)

theorem tried_none {new : Log} (hidden : shown new = []) :
    Tried renderer uid displayedText actions (.ok none) new := by
  rintro _ returned
  cases returned
  exact hidden

theorem reader_adds (isPublic : renderer.privateContent = false) (log : Log) :
    Adds log (reader env renderer uid displayedText title actions visible log)
      (Tried renderer uid displayedText actions) := by
  unfold reader
  generalize env.storeLongMessage log uid displayedText = answer
  cases answer with
  | cancelled => exact ⟨_, rfl, by rintro _ impossible; cases impossible⟩
  | raised error => exact ⟨_, rfl, tried_none _ _ _ _ rfl⟩
  | returned stored =>
    cases stored with
    | false => exact ⟨_, rfl, tried_none _ _ _ _ rfl⟩
    | true =>
      dsimp only
      obtain ⟨sent, same, _, once⟩ := replaceOrSend_adds env
        (readerShowing renderer uid displayedText actions) visible
        (log ++ [.stored uid displayedText (.returned true)])
      generalize replaceOrSend env _ visible _ = outcome at same once
      obtain ⟨result, later⟩ := outcome
      dsimp only at same once
      subst same
      cases result with
      | error raised =>
        have hidden : shown ([.stored uid displayedText (.returned true)] ++ sent) = [] := by
          rw [shown_append, once]
          rfl
        cases raised with
        | delivery => exact ⟨_, List.append_assoc .., tried_none _ _ _ _ hidden⟩
        | _ => exact ⟨_, List.append_assoc .., by rintro _ impossible; cases impossible⟩
      | ok ref =>
        have seen : shown ([.stored uid displayedText (.returned true)] ++ sent) =
            [readerShowing renderer uid displayedText actions] := by
          rw [shown_append, once]
          rfl
        dsimp only
        split
        · refine ⟨[.stored uid displayedText (.returned true)] ++ sent ++
            [.submitted uid title displayedText], by simp only [List.append_assoc], ?_⟩
          rintro _ returned
          cases returned
          rw [shown_append, seen]
          exact .reader ref isPublic
        · refine ⟨_, List.append_assoc .., ?_⟩
          rintro _ returned
          cases returned
          rw [seen]
          exact .reader ref isPublic

theorem telegraph_adds (isPublic : renderer.privateContent = false) (log : Log) :
    Adds log (telegraph env renderer displayedText title actions visible log)
      (Tried renderer uid displayedText actions) := by
  unfold telegraph
  split
  · exact ⟨[], (List.append_nil log).symm, tried_none _ _ _ _ rfl⟩
  · generalize env.createTelegraphPage log title displayedText = answer
    cases answer with
    | cancelled => exact ⟨_, rfl, by rintro _ impossible; cases impossible⟩
    | raised error => exact ⟨_, rfl, tried_none _ _ _ _ rfl⟩
    | returned page =>
      match page with
      | none => exact ⟨_, rfl, tried_none _ _ _ _ rfl⟩
      | some [] => exact ⟨_, rfl, tried_none _ _ _ _ rfl⟩
      | some (first :: rest) =>
        dsimp only
        obtain ⟨sent, same, _, once⟩ := replaceOrSend_adds env
          (telegraphShowing renderer (first :: rest) displayedText actions) visible
          (log ++ [.published title displayedText (.returned (some (first :: rest)))])
        generalize replaceOrSend env _ visible _ = outcome at same once
        obtain ⟨result, later⟩ := outcome
        dsimp only at same once
        subst same
        cases result with
        | error raised =>
          have hidden : shown ([.published title displayedText
              (.returned (some (first :: rest)))] ++ sent) = [] := by
            rw [shown_append, once]
            rfl
          cases raised with
          | delivery => exact ⟨_, List.append_assoc .., tried_none _ _ _ _ hidden⟩
          | _ => exact ⟨_, List.append_assoc .., by rintro _ impossible; cases impossible⟩
        | ok ref =>
          refine ⟨_, List.append_assoc .., ?_⟩
          rintro _ returned
          cases returned
          rw [shown_append, once]
          exact .telegraph ref _ isPublic

/-- What a delivery leaves: a receipt for what was shown, and nothing private given away. -/
def Leaves (result : Except Raised Receipt) (new : Log) : Prop :=
  (renderer.privateContent = true → Confidential new) ∧ ∀ receipt, result = .ok receipt →
      Delivered renderer uid displayedText actions receipt (shown new)

theorem orElse_adds {tried : Outcome (Option Receipt)} {next : Log → Outcome Receipt} {log : Log}
    (first : Adds log tried fun result new =>
      (renderer.privateContent = true → Confidential new) ∧
        Tried renderer uid displayedText actions result new)
    (second : ∀ later, Adds later (next later) (Leaves renderer uid displayedText actions)) :
    Adds log (orElse tried next) (Leaves renderer uid displayedText actions) := by
  obtain ⟨result, later⟩ := tried
  obtain ⟨new, same, quiet, given⟩ := first
  dsimp only at same quiet given
  subst same
  cases result with
  | error raised => exact ⟨new, rfl, quiet, by rintro receipt impossible; cases impossible⟩
  | ok result =>
    have left := given result rfl
    cases result with
    | some receipt =>
      refine ⟨new, rfl, quiet, ?_⟩
      rintro _ returned
      cases returned
      exact left
    | none =>
      have unseen : shown new = [] := left
      obtain ⟨more, same, hushed, delivered⟩ := second (log ++ new)
      refine ⟨new ++ more, ?_, fun isPrivate => (quiet isPrivate).append (hushed isPrivate), ?_⟩
      · rw [orElse, same, List.append_assoc]
      · rw [shown_append, unseen, List.nil_append]
        exact delivered

/-- A delivery that returns has shown the text in exactly one form, and once. -/
theorem deliver_adds (log : Log) :
    Adds log (deliver env renderer uid displayedText title actions visible log)
      (Leaves renderer uid displayedText actions) := by
  -- The other forms are tried on public texts only.
  have skipped : ∀ log : Log, Adds log ((.ok none, log) : Outcome (Option Receipt))
      fun result new => (renderer.privateContent = true → Confidential new) ∧
        Tried renderer uid displayedText actions result new := by
    intro log
    refine ⟨[], (List.append_nil log).symm, fun _ => by simp [Confidential], ?_⟩
    rintro _ returned
    cases returned
    rfl
  have tried : ∀ {log : Log} {outcome : Outcome (Option Receipt)}, renderer.privateContent = false →
      Adds log outcome (Tried renderer uid displayedText actions) →
      Adds log outcome fun result new => (renderer.privateContent = true → Confidential new) ∧
        Tried renderer uid displayedText actions result new := by
    rintro log outcome isPublic ⟨new, same, given⟩
    refine ⟨new, same, fun isPrivate => ?_, given⟩
    rw [isPublic] at isPrivate
    cases isPrivate
  unfold deliver
  dsimp only
  split
  · next fits =>
      obtain ⟨new, same, quiet, once⟩ := replaceOrSend_adds env
        ⟨renderer.formattedHtml displayedText, true, actions⟩ visible log
      generalize replaceOrSend env _ visible log = outcome at same once
      obtain ⟨result, later⟩ := outcome
      dsimp only at same once
      subst same
      cases result with
      | error raised =>
        exact ⟨new, rfl, fun _ => quiet, by rintro receipt impossible; cases impossible⟩
      | ok ref =>
        refine ⟨new, rfl, fun _ => quiet, ?_⟩
        rintro _ returned
        cases returned
        rw [once]
        exact .message ref fits
  · refine orElse_adds renderer uid displayedText actions ?_ fun later =>
      orElse_adds renderer uid displayedText actions ?_ fun last => ?_
    · split
      · next applies =>
          exact tried applies.2
            (reader_adds env renderer uid displayedText title actions visible applies.2 log)
      · exact skipped log
    · split
      · next isPublic =>
          exact tried isPublic
            (telegraph_adds env renderer uid displayedText title actions visible isPublic later)
      · exact skipped later
    · obtain ⟨new, same, quiet, delivered⟩ :=
        split_adds env renderer uid displayedText actions visible last
      exact ⟨new, same, fun _ => quiet, delivered⟩

/-! ## A session -/

/-- A session that is closed refuses every call and stays as it is. -/
theorem call_closed {session : Session} (closed : session.opened = false) (label : Call) :
    call env renderer session label = (some .protocol, session) := by
  cases label with
  | append text => simp [call, append, closed]
  | showStatus text actions => simp [call, showStatus, closed]
  | finalize uid displayedText title actions modelContent => simp [call, finalize, closed]

theorem calls_closed {session : Session} (closed : session.opened = false) (labels : List Call) :
    calls env renderer session labels = session := by
  induction labels with
  | nil => rfl
  | cons label rest ih =>
    rw [calls, Run.run_cons, call_closed env renderer closed]
    exact ih

theorem finalize_adds (session : Session) (modelContent : Option Text) :
    ∃ new, (finalize env renderer session uid displayedText title actions modelContent).2.log =
        session.log ++ new ∧
      Leaves renderer uid displayedText actions
        (finalize env renderer session uid displayedText title actions modelContent).1 new ∧
      (finalize env renderer session uid displayedText title actions modelContent).2.opened =
        false := by
  have refused : ∀ raised, Leaves renderer uid displayedText actions (.error raised) [] :=
    fun raised => ⟨fun _ => by simp [Confidential], by rintro receipt impossible; cases impossible⟩
  unfold finalize
  split
  · next closed =>
      exact ⟨[], (List.append_nil _).symm, refused _, by simpa using closed⟩
  · split
    · exact ⟨[], (List.append_nil _).symm, refused _, rfl⟩
    · obtain ⟨new, same, leaves⟩ := deliver_adds env renderer uid displayedText title actions
        (decide (strip (renderer.stripTrace (modelContent.getD session.draftText)) ≠ []))
        session.log
      exact ⟨new, same, leaves, rfl⟩

theorem editWithRetry_confidential (message : Showing) {log : Log} (quiet : Confidential log)
    (visible : Bool) :
    Confidential (noted visible (editWithRetry env message maxAttempts log).2) := by
  obtain ⟨new, same, hushed, _⟩ := editWithRetry_adds env message maxAttempts log
  obtain ⟨note, noted, unnamed, _⟩ := noted_adds visible (log ++ new)
  rw [same, noted]
  exact (quiet.append hushed).append unnamed

/-- A session over private content never gives a text away. -/
theorem call_confidential (isPrivate : renderer.privateContent = true) {session : Session}
    (quiet : Confidential session.log) (label : Call) :
    Confidential (call env renderer session label).2.log := by
  cases label with
  | append text =>
    simp only [call, append]
    split
    · exact quiet
    · split
      · exact quiet
      · split
        · exact quiet
        · split
          · exact quiet
          · split
            · exact editWithRetry_confidential env _ quiet _
            · split
              · exact editWithRetry_confidential env _ quiet _
              · exact quiet
  | showStatus text actions =>
    simp only [call, showStatus]
    split
    · exact quiet
    · exact editWithRetry_confidential env ⟨text, false, actions⟩ quiet false
  | finalize uid displayedText title actions modelContent =>
    obtain ⟨new, same, leaves, _⟩ :=
      finalize_adds env renderer uid displayedText title actions session modelContent
    have log : (call env renderer session
        (.finalize uid displayedText title actions modelContent)).2.log = session.log ++ new :=
      same
    rw [log]
    exact quiet.append (leaves.1 isPrivate)

theorem calls_confidential (isPrivate : renderer.privateContent = true) (labels : List Call) :
    Confidential (calls env renderer {} labels).log :=
  Run.run_keeps (fun session : Session => Confidential session.log)
    (fun _ label quiet => call_confidential env renderer isPrivate quiet label)
    (by simp [Confidential]) labels

theorem finalize_opened {session : Session} {modelContent : Option Text} {receipt : Receipt}
    (returned : (finalize env renderer session uid displayedText title actions
      modelContent).1 = .ok receipt) : session.opened = true := by
  unfold finalize at returned
  split at returned
  · cases returned
  · next isOpen => simpa using isOpen

/-- The keyboard stands under the last part and under no earlier one. -/
theorem partShowings_keyboard (parts : List Text) :
    (∀ message ∈ (partShowings actions parts).dropLast, message.replyMarkup = none) ∧
      ∀ message, (partShowings actions parts).getLast? = some message →
        message.replyMarkup = actions := by
  induction parts with
  | nil => exact ⟨by simp [partShowings], by simp [partShowings]⟩
  | cons part rest ih =>
    cases rest with
    | nil =>
      refine ⟨by simp [partShowings], ?_⟩
      rintro message last
      cases last
      rfl
    | cons second others =>
      obtain ⟨earlier, last⟩ := ih
      rw [partShowings, if_neg (List.cons_ne_nil second others)]
      constructor
      · intro message member
        rw [partShowings, List.dropLast_cons_cons] at member
        rcases List.mem_cons.mp member with rfl | member
        · rfl
        · exact earlier message member
      · intro message final
        rw [partShowings, List.getLast?_cons_cons] at final
        exact last message final

/--
Over every environment and after any calls of a session, a finalize raises, or
the text is shown in exactly one form and once; in parts they are the parts of
the split in their order, with the keyboard under the last one only.  Private
content is never given away, and after a finalize every call is refused.
-/
theorem delivered_once (labels : List Call) :
    (renderer.privateContent = true → Confidential (calls env renderer {} labels).log) ∧
      (∀ uid displayedText title actions modelContent,
        ∃ session new, (finalize env renderer (calls env renderer {} labels) uid displayedText
            title actions modelContent).2 = session ∧
          session.log = (calls env renderer {} labels).log ++ new ∧
          (∀ receipt, (finalize env renderer (calls env renderer {} labels) uid displayedText
              title actions modelContent).1 = .ok receipt →
            (calls env renderer {} labels).opened = true ∧
              Delivered renderer uid displayedText actions receipt (shown new)) ∧
          (∀ further, calls env renderer session further = session) ∧
          ∀ label, (call env renderer session label).1 = some .protocol) ∧
      ∀ actions parts, (partShowings actions parts).map Showing.text = parts ∧
        (∀ message ∈ (partShowings actions parts).dropLast, message.replyMarkup = none) ∧
        ∀ message, (partShowings actions parts).getLast? = some message →
          message.replyMarkup = actions := by
  refine ⟨fun isPrivate => calls_confidential env renderer isPrivate labels, ?_,
    fun actions parts => ⟨partShowings_text actions parts, partShowings_keyboard actions parts⟩⟩
  intro uid displayedText title actions modelContent
  obtain ⟨new, same, leaves, closed⟩ := finalize_adds env renderer uid displayedText title actions
    (calls env renderer {} labels) modelContent
  refine ⟨_, new, rfl, same, fun receipt returned => ⟨?_, leaves.2 receipt returned⟩,
    calls_closed env renderer closed, fun label => ?_⟩
  · exact finalize_opened env renderer uid displayedText title actions returned
  · rw [call_closed env renderer closed]

end BobbyBotique.Delivery
