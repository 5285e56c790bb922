import BobbyBotique.Foundation.Run
import BobbyBotique.Foundation.Text
import BobbyBotique.Foundation.Utf8

/-!
# Debounced messages

The messages of one user between the awaits of `debounce_message`.  A call joins the open
window, opens one and waits as its owner, or is taken by a collection of long speech.
Which way a message goes, when a timer fires and when a transcript is there are choices of
the run.
-/

namespace BobbyBotique.Debounce

abbrev Text := List Char

/-! ## Messages and entries -/

structure Message where
  messageId : Int
  chatId : Int
  text : Text
  isForwarded : Bool
  isVoice : Bool
deriving DecidableEq

/-- An entry with the call that passed it in. -/
structure Entry where
  call : Nat
  message : Message
  text : Text
  awaitsStt : Bool
deriving DecidableEq

/-- `_build_entry`, which has no await. -/
def buildEntry (call : Nat) (message : Message) : Entry :=
  ⟨call, message, message.text, message.isForwarded && message.isVoice⟩

/-- What becomes of a transcription within the grace period. -/
inductive Heard where
  | transcript (text : Text)
  | late

def unavailableStub : Text := "[Голосовое сообщение — расшифровка недоступна]".toList

def processingStub : Text := "[Голосовое сообщение — расшифровка обрабатывается]".toList

/-- `_resolve_stt_futures` for one entry. -/
def Entry.resolve (heard : Nat → Heard) (entry : Entry) : Entry :=
  if entry.awaitsStt then
    match heard entry.call with
    | .transcript text => { entry with text := if text = [] then unavailableStub else text }
    | .late => { entry with text := processingStub }
  else entry

structure DebounceResult where
  entries : List Entry
  speechCollection : Bool
  speechEpoch : Option Int
  speechError : Text
deriving DecidableEq

/-! ## Slots -/

def defaultWindow : Nat := 1000

def forwardWindow : Nat := 3500

def speechMaxParts : Nat := 32

def speechMaxBytes : Nat := 256 * 1024

/-- What a window and a collection have beside their entries. -/
inductive Slot where
  | window (timer : Option Nat) (ready isForwardBurst : Bool)
  | speech (chatId : Int) (epoch : Option Int) (finished finishRequested : Bool)
      (retainedBytes : Nat) (error : Text)
deriving DecidableEq

/-- Where the owner of a slot stands. -/
inductive Stage where
  | waiting
  | resolving
  | releasing
  | returned
deriving DecidableEq

/-- A slot with its entries and the call that owns it. -/
structure Batch where
  owner : Nat
  entries : List Entry
  stage : Stage
  slot : Slot
deriving DecidableEq

namespace Batch

/-- The window is open: its event is not set. -/
def isOpen (batch : Batch) : Bool :=
  match batch.slot with
  | .window _ ready _ => !ready
  | .speech .. => false

def result (batch : Batch) : DebounceResult :=
  match batch.slot with
  | .window .. => ⟨batch.entries, false, none, []⟩
  | .speech _ epoch _ _ _ error => ⟨batch.entries, true, epoch, error⟩

/-- The timer is restarted after a message was absorbed. -/
def absorb (batch : Batch) (entry : Entry) : Batch :=
  match batch.slot with
  | .window _ ready burst =>
    let burst := burst || entry.message.isForwarded
    { batch with
      entries := batch.entries ++ [entry]
      slot := .window (some (if burst then forwardWindow else defaultWindow)) ready burst }
  | .speech .. => batch

/-- A photo does not restart the timer. -/
def inject (batch : Batch) (entry : Entry) : Batch :=
  match batch.slot with
  | .window timer ready _ =>
    { batch with entries := batch.entries ++ [entry], slot := .window timer ready true }
  | .speech .. => batch

def openWindow (entry : Entry) : Batch :=
  let timeout := if entry.message.isForwarded then forwardWindow else defaultWindow
  ⟨entry.call, [entry], .waiting, .window (some timeout) false entry.message.isForwarded⟩

def textBytes (entry : Entry) : Nat := (Utf8.encode entry.text).length

def openCollection (entry : Entry) (epoch : Option Int) : Batch :=
  ⟨entry.call, [entry], .waiting,
    .speech entry.message.chatId epoch false false (textBytes entry) []⟩

def capacityError : Text := "collection_capacity".toList

/-- The result of a message for which there is no room for a collection. -/
def single (entry : Entry) (epoch : Option Int) : Batch :=
  ⟨entry.call, [entry], .returned,
    .speech entry.message.chatId epoch true false (textBytes entry) capacityError⟩

end Batch

/-! ## Calls -/

/-- Why a collection has no entry of a message that it took. -/
inductive Excuse where
  | staleEpoch
  | confirmation
  | repeated
deriving DecidableEq

/-- What a call has returned. -/
inductive Reply where
  | pending
  | absorbed
  | injected (taken : Bool)
  | result (result : DebounceResult)
deriving DecidableEq

structure Call where
  message : Message
  reply : Reply
  excuse : Option Excuse
deriving DecidableEq

/-- The calls in the order in which they arrived, the slots, and the two registries. -/
structure Debouncer where
  calls : List Call
  batches : List Batch
  windowSlot : Option Nat
  speechSlot : Option Nat
deriving DecidableEq

namespace Debouncer

def initial : Debouncer := ⟨[], [], none, none⟩

/-- The next call joins a slot. -/
def join (state : Debouncer) (place : Nat) (batch : Batch) (message : Message) (reply : Reply) :
    Debouncer :=
  { state with
    calls := state.calls ++ [⟨message, reply, none⟩]
    batches := state.batches.set place batch }

/-- The next call brings a slot of its own. -/
def own (state : Debouncer) (batch : Batch) (message : Message) (reply : Reply) : Debouncer :=
  { state with
    calls := state.calls ++ [⟨message, reply, none⟩]
    batches := state.batches ++ [batch] }

/-- The next call joins no slot. -/
def pass (state : Debouncer) (message : Message) (reply : Reply) (excuse : Option Excuse) :
    Debouncer :=
  { state with calls := state.calls ++ [⟨message, reply, excuse⟩] }

def put (state : Debouncer) (place : Nat) (batch : Batch) : Debouncer :=
  { state with batches := state.batches.set place batch }

/-- The open window of the user. -/
def openSlot (state : Debouncer) : Option (Nat × Batch) :=
  match state.windowSlot with
  | some place =>
    match state.batches[place]? with
    | some batch => if batch.isOpen then some (place, batch) else none
    | none => none
  | none => none

/-- `inject_forwarded_photo`. -/
def injectForwardedPhoto (state : Debouncer) (message : Message) : Debouncer :=
  match state.openSlot with
  | some (place, batch) =>
    state.join place (batch.inject (buildEntry state.calls.length message)) message
      (.injected true)
  | none => state.pass message (.injected false) none

/-- `debounce_message`, for a message that is no part of a collection. -/
def debounceWindow (state : Debouncer) (message : Message) : Debouncer :=
  let entry := buildEntry state.calls.length message
  match state.openSlot with
  | some (place, batch) => state.join place (batch.absorb entry) message .absorbed
  | none =>
    { state.own (Batch.openWindow entry) message .pending with
      windowSlot := some state.batches.length }

section

variable (casefold : Char → Text)

/-- The words that confirm the end of a text. -/
def confirms (text : Text) : Bool :=
  ["готово".toList, "done".toList].contains ((strip text).flatMap casefold)

def staleError : Text := "stale_epoch".toList

/-- A message of a collection that is not finished. -/
def collectInto (state : Debouncer) (place : Nat) (batch : Batch) (message : Message)
    (speechEpoch : Option Int) : Debouncer :=
  match batch.slot with
  | .window .. => state
  | .speech chatId epoch finished finishRequested retainedBytes error =>
    if epoch ≠ speechEpoch then
      (state.put place { batch with
        slot := .speech chatId epoch true finishRequested retainedBytes staleError }).pass
          message .absorbed (some .staleEpoch)
    else if confirms casefold message.text then
      (state.put place { batch with
        slot := .speech chatId epoch finished true retainedBytes error }).pass
          message .absorbed (some .confirmation)
    else if batch.entries.any fun entry => entry.message.messageId == message.messageId then
      state.pass message .absorbed (some .repeated)
    else
      let entry := buildEntry state.calls.length message
      let size := Batch.textBytes entry
      let slot :=
        if speechMaxParts ≤ batch.entries.length ∨ speechMaxBytes < retainedBytes + size then
          .speech chatId epoch true finishRequested retainedBytes Batch.capacityError
        else .speech chatId epoch finished finishRequested (retainedBytes + size) error
      state.join place { batch with entries := batch.entries ++ [entry], slot := slot } message
        .absorbed

/-- `slot is not None and slot.chat_id == chat_id and not slot.finished`. -/
def collects (batch : Batch) (message : Message) : Bool :=
  match batch.slot with
  | .window .. => false
  | .speech chatId _ finished _ _ _ => chatId == message.chatId && !finished

/-- `_collect_speech_message`; `full` says whether there are too many collections. -/
def collectSpeechMessage (state : Debouncer) (message : Message) (speechEpoch : Option Int)
    (full : Bool) : Debouncer :=
  let entry := buildEntry state.calls.length message
  match state.speechSlot.bind fun place => (state.batches[place]?).map fun batch => (place, batch)
    with
  | some (place, batch) =>
    if collects batch message then state.collectInto casefold place batch message speechEpoch
    else
      let batch := Batch.single entry speechEpoch
      state.own batch message (.result batch.result)
  | none =>
    if full then
      let batch := Batch.single entry speechEpoch
      state.own batch message (.result batch.result)
    else
      { state.own (Batch.openCollection entry speechEpoch) message .pending with
        speechSlot := some state.batches.length }

end

/-! ## Steps of timers and owners -/

/-- The owner of a slot returns its result. -/
def answer (state : Debouncer) (batch : Batch) : Debouncer :=
  { state with
    calls := state.calls.modify batch.owner fun call =>
      { call with reply := .result batch.result } }

/-- The registry without the slot, if it is the one that is registered. -/
def release (registry : Option Nat) (place : Nat) : Option Nat :=
  if registry = some place then none else registry

inductive Label where
  | debounce (message : Message)
  | speech (message : Message) (speechEpoch : Option Int) (full : Bool)
  | inject (message : Message)
  /-- The timer of a window expires. -/
  | timer (place : Nat)
  /-- The owner sees the event and waits for transcripts. -/
  | resume (place : Nat)
  /-- The transcripts are there or late; the slot is released. -/
  | settle (place : Nat) (heard : Nat → Heard)
  /-- The timer task has ended and the owner returns. -/
  | answer (place : Nat)
  /-- The owner of a collection has read its epoch. -/
  | epoch (place : Nat) (epoch : Option Int)
  /-- The owner of a collection comes to its end. -/
  | collected (place : Nat) (error : Text)

def timer (state : Debouncer) (place : Nat) (batch : Batch) : Debouncer :=
  match batch.slot with
  | .window (some _) false burst => state.put place { batch with slot := .window none true burst }
  | _ => state

def resume (state : Debouncer) (place : Nat) (batch : Batch) : Debouncer :=
  match batch.slot, batch.stage with
  | .window _ true _, .waiting => state.put place { batch with stage := .resolving }
  | _, _ => state

def settle (state : Debouncer) (place : Nat) (batch : Batch) (heard : Nat → Heard) : Debouncer :=
  match batch.slot, batch.stage with
  | .window .., .resolving =>
    { state.put place { batch with
        entries := batch.entries.map (Entry.resolve heard), stage := .releasing } with
      windowSlot := release state.windowSlot place }
  | _, _ => state

def answerWindow (state : Debouncer) (place : Nat) (batch : Batch) : Debouncer :=
  match batch.slot, batch.stage with
  | .window .., .releasing => (state.put place { batch with stage := .returned }).answer batch
  | _, _ => state

def setEpoch (state : Debouncer) (place : Nat) (batch : Batch) (epoch : Option Int) : Debouncer :=
  match batch.slot, batch.stage with
  | .speech chatId _ finished finishRequested retainedBytes error, .waiting =>
    state.put place { batch with
      slot := .speech chatId epoch finished finishRequested retainedBytes error }
  | _, _ => state

/-- The error of a finished collection stays; another may find its end open. -/
def collected (state : Debouncer) (place : Nat) (batch : Batch) (error : Text) : Debouncer :=
  match batch.slot, batch.stage with
  | .speech chatId epoch finished finishRequested retainedBytes kept, .waiting =>
    let batch := { batch with
      stage := .returned
      slot := .speech chatId epoch finished finishRequested retainedBytes
        (if finished then kept else error) }
    { (state.put place batch).answer batch with
      speechSlot := release state.speechSlot place }
  | _, _ => state

def atBatch (state : Debouncer) (place : Nat) (next : Batch → Debouncer) : Debouncer :=
  match state.batches[place]? with
  | some batch => next batch
  | none => state

/-- A label that does not fit the state does nothing. -/
def step (casefold : Char → Text) (state : Debouncer) : Label → Debouncer
  | .debounce message => state.debounceWindow message
  | .speech message speechEpoch full =>
    state.collectSpeechMessage casefold message speechEpoch full
  | .inject message => state.injectForwardedPhoto message
  | .timer place => state.atBatch place (state.timer place)
  | .resume place => state.atBatch place (state.resume place)
  | .settle place heard => state.atBatch place fun batch => state.settle place batch heard
  | .answer place => state.atBatch place (state.answerWindow place)
  | .epoch place epoch => state.atBatch place fun batch => state.setEpoch place batch epoch
  | .collected place error => state.atBatch place fun batch => state.collected place batch error

end Debouncer

end BobbyBotique.Debounce
