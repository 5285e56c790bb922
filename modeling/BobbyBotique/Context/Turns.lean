import BobbyBotique.Foundation.Text
import Mathlib.Data.List.Chain

/-!
# Turns of a conversation

A message is an object that refers to a list of parts; both live in a memory
that callers share.  Merging neighbours of the same role works on copies and
leaves what was in the memory before as it was.
-/

namespace BobbyBotique.Context

abbrev Text := List Char

variable {P : Type}

/-- What a message says; a missing list of parts is empty. -/
structure Turn (P : Type) where
  role : Option String
  parts : List P
  content : Text

/-- The parts of a turn, each with its role. -/
def Turn.spread (turn : Turn P) : List (Option String × P) :=
  turn.parts.map fun part => (turn.role, part)

/-! ## Neighbours of the same role -/

/-- Merges a turn with the turns of its role that follow it, and so on. -/
def mergeTurns (last : Turn P) : List (Turn P) → List (Turn P)
  | [] => [last]
  | turn :: rest =>
    if turn.role = last.role then
      mergeTurns { last with parts := last.parts ++ turn.parts } rest
    else last :: mergeTurns turn rest

/-- Neighbours have different roles. -/
def Alternating (turns : List (Turn P)) : Prop :=
  turns.IsChain fun first second => first.role ≠ second.role

theorem mergeTurns_head (last : Turn P) (rest : List (Turn P)) :
    ∃ first tail, mergeTurns last rest = first :: tail ∧ first.role = last.role := by
  induction rest generalizing last with
  | nil => exact ⟨last, [], rfl, rfl⟩
  | cons turn rest ih =>
    rw [mergeTurns]
    split
    · exact ih { last with parts := last.parts ++ turn.parts }
    · exact ⟨last, _, rfl, rfl⟩

theorem mergeTurns_alternating (last : Turn P) (rest : List (Turn P)) :
    Alternating (mergeTurns last rest) := by
  induction rest generalizing last with
  | nil => exact .singleton _
  | cons turn rest ih =>
    rw [mergeTurns]
    split
    · exact ih _
    · next other =>
        obtain ⟨first, tail, same, role⟩ := mergeTurns_head turn rest
        have chain := ih turn
        rw [same] at chain ⊢
        refine List.IsChain.cons_cons (fun equal => other ?_) chain
        exact (equal.trans role).symm

theorem mergeTurns_spread (last : Turn P) (rest : List (Turn P)) :
    (mergeTurns last rest).flatMap Turn.spread = (last :: rest).flatMap Turn.spread := by
  induction rest generalizing last with
  | nil => rfl
  | cons turn rest ih =>
    rw [mergeTurns]
    split
    · next same =>
        rw [ih]
        simp only [List.flatMap_cons, Turn.spread, List.map_append, List.append_assoc, same]
    · rw [List.flatMap_cons, ih, List.flatMap_cons (x := last)]

/-- There is nothing to merge where the roles alternate. -/
theorem mergeTurns_of_alternating {last : Turn P} {rest : List (Turn P)}
    (alternating : Alternating (last :: rest)) : mergeTurns last rest = last :: rest := by
  induction rest generalizing last with
  | nil => rfl
  | cons turn rest ih =>
    obtain ⟨differ, chain⟩ := List.isChain_cons_cons.mp alternating
    rw [mergeTurns, if_neg fun same => differ same.symm, ih chain]

/-- All neighbours of the same role merged. -/
def mergeAll : List (Turn P) → List (Turn P)
  | [] => []
  | first :: rest => mergeTurns first rest

theorem mergeAll_alternating (turns : List (Turn P)) : Alternating (mergeAll turns) := by
  cases turns with
  | nil => exact .nil
  | cons first rest => exact mergeTurns_alternating first rest

theorem mergeAll_spread (turns : List (Turn P)) :
    (mergeAll turns).flatMap Turn.spread = turns.flatMap Turn.spread := by
  cases turns with
  | nil => rfl
  | cons first rest => exact mergeTurns_spread first rest

theorem mergeAll_of_alternating {turns : List (Turn P)} (alternating : Alternating turns) :
    mergeAll turns = turns := by
  cases turns with
  | nil => rfl
  | cons first rest => exact mergeTurns_of_alternating alternating

/-! ## The memory -/

structure Message where
  role : Option String
  parts : Option Nat
  content : Text

/-- The message objects and the lists of parts; a message refers to a list that is there. -/
structure Memory (P : Type) where
  messages : List Message
  partLists : List (List P)
  refers : ∀ message ∈ messages, ∀ ref ∈ message.parts, ref < partLists.length

namespace Memory

/-- What the message object says. -/
def read (memory : Memory P) (ref : Nat) : Turn P :=
  match memory.messages[ref]? with
  | some message =>
    ⟨message.role, (message.parts.bind fun list => memory.partLists[list]?).getD [],
      message.content⟩
  | none => ⟨none, [], []⟩

/-- The address of the next message object. -/
def next (memory : Memory P) : Nat := memory.messages.length

/-- A new object with a new list of parts. -/
def newMessage (memory : Memory P) (turn : Turn P) : Memory P where
  messages := memory.messages ++ [⟨turn.role, some memory.partLists.length, turn.content⟩]
  partLists := memory.partLists ++ [turn.parts]
  refers := by
    intro message member ref held
    rw [List.length_append, List.length_singleton]
    rcases List.mem_append.mp member with old | new
    · exact Nat.lt_succ_of_lt (memory.refers message old ref held)
    · cases List.mem_singleton.mp new
      cases held
      exact Nat.lt_succ_self _

/-- `message["parts"] = parts` with a new list. -/
def setParts (memory : Memory P) (ref : Nat) (parts : List P) : Memory P where
  messages := memory.messages.modify ref fun message =>
    { message with parts := some memory.partLists.length }
  partLists := memory.partLists ++ [parts]
  refers := by
    intro message member list held
    rw [List.length_append, List.length_singleton]
    obtain ⟨place, inside, rfl⟩ := List.mem_iff_getElem.mp member
    rw [List.getElem_modify] at held
    split at held
    · cases held
      exact Nat.lt_succ_self _
    · exact Nat.lt_succ_of_lt (memory.refers _ (List.getElem_mem _) list held)

/-- Everything that was in the memory is there unchanged. -/
structure Extends (before after : Memory P) : Prop where
  next_le : before.next ≤ after.next
  messages : ∀ ref < before.next, after.messages[ref]? = before.messages[ref]?
  partLists : before.partLists <+: after.partLists

theorem Extends.refl (memory : Memory P) : Extends memory memory :=
  ⟨le_refl _, fun _ _ => rfl, List.prefix_refl _⟩

theorem Extends.trans {first middle last : Memory P} (early : Extends first middle)
    (late : Extends middle last) : Extends first last := by
  refine ⟨early.next_le.trans late.next_le, fun ref old => ?_, early.partLists.trans late.partLists⟩
  exact (late.messages ref (old.trans_le early.next_le)).trans (early.messages ref old)

@[simp] theorem next_newMessage (memory : Memory P) (turn : Turn P) :
    (memory.newMessage turn).next = memory.next + 1 := by
  simp [next, newMessage]

/-- A new object is stored where no object was. -/
theorem next_lt_newMessage (memory : Memory P) (turn : Turn P) :
    memory.next < (memory.newMessage turn).next := by
  rw [next_newMessage]
  exact Nat.lt_succ_self _

@[simp] theorem next_setParts (memory : Memory P) (ref : Nat) (parts : List P) :
    (memory.setParts ref parts).next = memory.next := by
  simp [next, setParts]

theorem extends_newMessage (memory : Memory P) (turn : Turn P) :
    Extends memory (memory.newMessage turn) := by
  constructor
  · exact (next_lt_newMessage memory turn).le
  · intro ref old
    exact List.getElem?_append_left old
  · exact List.prefix_append _ _

theorem messages_setParts_ne (memory : Memory P) {ref other : Nat} (ne : other ≠ ref)
    (parts : List P) : (memory.setParts ref parts).messages[other]? = memory.messages[other]? := by
  simp [setParts, ne.symm]

/-- Setting the parts of a later object leaves the earlier ones. -/
theorem Extends.setParts {before after : Memory P} (grown : Extends before after) {ref : Nat}
    (later : before.next ≤ ref) (parts : List P) : Extends before (after.setParts ref parts) := by
  constructor
  · rw [next_setParts]
    exact grown.next_le
  · intro other old
    rw [messages_setParts_ne after (Nat.ne_of_lt (old.trans_le later))]
    exact grown.messages other old
  · exact grown.partLists.trans (List.prefix_append _ _)

theorem read_congr {before after : Memory P} (lists : before.partLists <+: after.partLists)
    {ref : Nat} (same : after.messages[ref]? = before.messages[ref]?) :
    after.read ref = before.read ref := by
  unfold read
  rw [same]
  cases found : before.messages[ref]? with
  | none => rfl
  | some message =>
    dsimp only
    cases held : message.parts with
    | none => rfl
    | some list =>
      have inside := before.refers message (List.mem_of_getElem? found) list held
      obtain ⟨more, grown⟩ := lists
      dsimp only [Option.bind_some]
      rw [← grown, List.getElem?_append_left inside]

theorem Extends.read {before after : Memory P} (grown : Extends before after) {ref : Nat}
    (old : ref < before.next) : after.read ref = before.read ref :=
  read_congr grown.partLists (grown.messages ref old)

theorem Extends.map_read {before after : Memory P} (grown : Extends before after)
    {refs : List Nat} (old : ∀ ref ∈ refs, ref < before.next) :
    refs.map after.read = refs.map before.read :=
  List.map_congr_left fun ref member => grown.read (old ref member)

@[simp] theorem read_newMessage (memory : Memory P) (turn : Turn P) :
    (memory.newMessage turn).read memory.next = turn := by
  simp [read, newMessage, next]

theorem read_setParts_self {memory : Memory P} {ref : Nat} (old : ref < memory.next)
    (parts : List P) :
    (memory.setParts ref parts).read ref = { memory.read ref with parts } := by
  have found : memory.messages[ref]? = some memory.messages[ref] := List.getElem?_eq_getElem old
  simp [read, setParts, found]

theorem read_setParts_ne {memory : Memory P} {ref other : Nat} (ne : other ≠ ref)
    (parts : List P) : (memory.setParts ref parts).read other = memory.read other := by
  exact read_congr (List.prefix_append _ _) (messages_setParts_ne memory ne parts)

end Memory

/-! ## The role fix -/

/-- The loop of `_fix_role_alternation`; the last of the fixed messages stands apart. -/
def fixLoop (memory : Memory P) (fixed : List Nat) (last : Nat) : List Nat → Memory P × List Nat
  | [] => (memory, fixed ++ [last])
  | message :: rest =>
    if (memory.read message).role = (memory.read last).role then
      fixLoop (memory.setParts last ((memory.read last).parts ++ (memory.read message).parts))
        fixed last rest
    else
      fixLoop (memory.newMessage (memory.read message)) (fixed ++ [last]) memory.next rest

/-- `_fix_role_alternation`. -/
def fixRoleAlternation (memory : Memory P) : List Nat → Memory P × List Nat
  | first :: second :: rest =>
    fixLoop (memory.newMessage (memory.read first)) [] memory.next (second :: rest)
  | history => (memory, history)

/-- The loop merges what the messages said before it, and writes to its own copies only. -/
theorem fixLoop_spec {before memory : Memory P} (grown : Memory.Extends before memory)
    {fixed : List Nat} {last : Nat} {rest : List Nat} (old : ∀ ref ∈ rest, ref < before.next)
    (earlier : ∀ ref ∈ fixed, ref < last) (own : before.next ≤ last) (there : last < memory.next) :
    Memory.Extends before (fixLoop memory fixed last rest).1 ∧
      (fixLoop memory fixed last rest).2.map (fixLoop memory fixed last rest).1.read =
        fixed.map memory.read ++ mergeTurns (memory.read last) (rest.map before.read) ∧
      ∀ ref ∈ (fixLoop memory fixed last rest).2,
        ref < (fixLoop memory fixed last rest).1.next := by
  induction rest generalizing memory fixed last with
  | nil =>
    refine ⟨grown, ?_, ?_⟩
    · simp [fixLoop, mergeTurns]
    · intro ref member
      rcases List.mem_append.mp member with kept | same
      · exact (earlier ref kept).trans there
      · cases List.mem_singleton.mp same
        exact there
  | cons message rest ih =>
    have said := grown.read (old message List.mem_cons_self)
    have later : ∀ ref ∈ rest, ref < before.next :=
      fun ref member => old ref (List.mem_cons_of_mem _ member)
    rw [fixLoop, List.map_cons, mergeTurns, said]
    split
    · have kept : fixed.map (memory.setParts last
          ((memory.read last).parts ++ (before.read message).parts)).read =
            fixed.map memory.read :=
        List.map_congr_left fun ref member =>
          Memory.read_setParts_ne (Nat.ne_of_lt (earlier ref member)) _
      have result := ih (grown.setParts own _) later earlier own
        (there.trans_eq (Memory.next_setParts memory last
          ((memory.read last).parts ++ (before.read message).parts)).symm)
      rw [kept, Memory.read_setParts_self there] at result
      exact result
    · have copied := Memory.extends_newMessage memory (before.read message)
      have settled : ∀ ref ∈ fixed ++ [last], ref < memory.next := by
        intro ref member
        rcases List.mem_append.mp member with kept | same
        · exact (earlier ref kept).trans there
        · cases List.mem_singleton.mp same
          exact there
      have room := memory.next_lt_newMessage (before.read message)
      have result := ih (grown.trans copied) later settled grown.next_le room
      rw [copied.map_read settled, Memory.read_newMessage, List.map_append,
        List.append_assoc] at result
      exact result

/-- What the role fix returns says the same, with neighbours of one role merged. -/
theorem fixRoleAlternation_spec (memory : Memory P) {history : List Nat}
    (old : ∀ ref ∈ history, ref < memory.next) :
    Memory.Extends memory (fixRoleAlternation memory history).1 ∧
      (∀ ref ∈ (fixRoleAlternation memory history).2,
        ref < (fixRoleAlternation memory history).1.next) ∧
      (fixRoleAlternation memory history).2.map (fixRoleAlternation memory history).1.read =
        mergeAll (history.map memory.read) := by
  match history with
  | [] => exact ⟨.refl memory, old, rfl⟩
  | [first] => exact ⟨.refl memory, old, rfl⟩
  | first :: second :: rest =>
    have copied := Memory.extends_newMessage memory (memory.read first)
    have room := memory.next_lt_newMessage (memory.read first)
    have later : ∀ ref ∈ second :: rest, ref < memory.next :=
      fun ref member => old ref (List.mem_cons_of_mem _ member)
    have nothing : ∀ ref ∈ ([] : List Nat), ref < memory.next := fun ref member => nomatch member
    obtain ⟨grown, said, valid⟩ := fixLoop_spec copied later nothing (le_refl _) room
    refine ⟨grown, valid, said.trans ?_⟩
    rw [Memory.read_newMessage]
    rfl

end BobbyBotique.Context
