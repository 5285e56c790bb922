import BobbyBotique.Context.Fragments
import BobbyBotique.Foundation.Packing

/-!
# The chunks of a summary

The lines of the messages are cut into fragments, and the fragments are packed into
chunks.  A chunk is closed before a fragment that would overflow it and after one
that fills it; where that makes too many chunks, the input is refused.
-/

namespace BobbyBotique.Context

variable {P : Type}

def chunkSize : Nat := 10000

def maxChunks : Nat := 6

inductive ChunkFailure where
  /-- `SummarizationInputTooLarge`. -/
  | tooLarge
  | failed (failure : TextFailure)
  deriving DecidableEq, Repr

structure ChunkState where
  chunks : List Text
  currentChunkParts : List Text
  currentTokens : Nat

def joinParts (parts : List Text) : Text := ['\n'].intercalate parts

/-- The rest of the inner loop, where the fragment joins the chunk that is open. -/
def appendFragment (state : ChunkState) (fragment : Text) : Except ChunkFailure ChunkState :=
  let parts := state.currentChunkParts ++ [fragment]
  let tokens := state.currentTokens + estimateTokens fragment
  if chunkSize ≤ tokens then
    if maxChunks < (state.chunks ++ [joinParts parts]).length then .error .tooLarge
    else .ok ⟨state.chunks ++ [joinParts parts], [], 0⟩
  else .ok ⟨state.chunks, parts, tokens⟩

/-- The inner loop of `split_into_chunks`. -/
def addFragment (state : ChunkState) (fragment : Text) : Except ChunkFailure ChunkState :=
  if state.currentChunkParts ≠ [] ∧ chunkSize < state.currentTokens + estimateTokens fragment then
    if maxChunks ≤ (state.chunks ++ [joinParts state.currentChunkParts]).length then
      .error .tooLarge
    else appendFragment ⟨state.chunks ++ [joinParts state.currentChunkParts], [], 0⟩ fragment
  else appendFragment state fragment

def addLine (state : ChunkState) (line : Text) : Except ChunkFailure ChunkState :=
  match splitTextToTokenLimit line chunkSize with
  | .error failure => .error (.failed failure)
  | .ok fragments => fragments.foldlM addFragment state

def roleLine (wording : Wording P) (msg : Turn P) : Text :=
  (msg.role.getD "unknown").toList ++ ": ".toList ++ extractText wording msg

/-- The outer loop. -/
def addMessage (wording : Wording P) (state : ChunkState) (msg : Turn P) :
    Except ChunkFailure ChunkState :=
  if extractText wording msg = [] then .ok state else addLine state (roleLine wording msg)

/-- The last chunk and the last check. -/
def flushChunks (state : ChunkState) : Except ChunkFailure (List Text) :=
  let chunks := if state.currentChunkParts ≠ [] then
      state.chunks ++ [joinParts state.currentChunkParts]
    else state.chunks
  if maxChunks < chunks.length then .error .tooLarge else .ok chunks

def splitIntoChunks (wording : Wording P) (messages : List (Turn P)) :
    Except ChunkFailure (List Text) :=
  if messages = [] then .ok []
  else messages.foldlM (addMessage wording) ⟨[], [], 0⟩ >>= flushChunks

/-! ## Lines and fragments -/

/-- The lines of the messages that have a text. -/
def linesOf (wording : Wording P) (messages : List (Turn P)) : List Text :=
  (messages.filter fun msg => extractText wording msg ≠ []).map (roleLine wording)

theorem foldlM_addMessage (wording : Wording P) (messages : List (Turn P)) (state : ChunkState) :
    messages.foldlM (addMessage wording) state =
      (linesOf wording messages).foldlM addLine state := by
  induction messages generalizing state with
  | nil => rfl
  | cons msg rest ih =>
    by_cases empty : extractText wording msg = []
    · have skipped : linesOf wording (msg :: rest) = linesOf wording rest := by
        rw [linesOf, List.filter_cons_of_neg (by simpa using empty)]
        rfl
      rw [List.foldlM_cons, addMessage, if_pos empty, skipped]
      exact ih state
    · have kept : linesOf wording (msg :: rest) =
          roleLine wording msg :: linesOf wording rest := by
        rw [linesOf, List.filter_cons_of_pos (by simpa using empty)]
        rfl
      rw [List.foldlM_cons, addMessage, if_neg empty, kept, List.foldlM_cons]
      exact congrArg _ (funext ih)

/-- The fragments of a line. -/
structure FragmentsOf (line : Text) (fragments : List Text) : Prop where
  split : splitTextToTokenLimit line chunkSize = .ok fragments
  joined : fragments.flatten = line
  each : ∀ fragment ∈ fragments, fragment ≠ [] ∧ estimateTokens fragment ≤ chunkSize

theorem fragments_exist (line : Text) : ∃ fragments, FragmentsOf line fragments := by
  have fits : ∀ c ∈ line, c.utf8Size ≤ chunkSize * 3 := by
    intro c _
    have four := c.utf8Size_le_four
    rw [chunkSize]
    omega
  obtain ⟨fragments, ok, joined, each⟩ := splitRemaining_ok fits
  refine ⟨fragments, ok, joined, fun fragment member => ⟨(each fragment member).1, ?_⟩⟩
  exact estimateTokens_le (by decide) (each fragment member).2

theorem fragments_all (lines : List Text) :
    ∃ fragments, List.Forall₂ FragmentsOf lines fragments := by
  induction lines with
  | nil => exact ⟨[], .nil⟩
  | cons line rest ih =>
    obtain ⟨first, of⟩ := fragments_exist line
    obtain ⟨later, all⟩ := ih
    exact ⟨first :: later, .cons of all⟩

theorem foldlM_addLine {lines : List Text} {fragments : List (List Text)}
    (all : List.Forall₂ FragmentsOf lines fragments) (state : ChunkState) :
    lines.foldlM addLine state = fragments.flatten.foldlM addFragment state := by
  induction all generalizing state with
  | nil => rfl
  | cons of rest ih =>
    rw [List.foldlM_cons, List.flatten_cons, List.foldlM_append, addLine, of.split]
    exact congrArg _ (funext ih)

theorem estimateTokens_pos {text : Text} (some : text ≠ []) : 0 < estimateTokens text := by
  rw [estimateTokens_eq, if_neg some]
  omega

theorem fragments_fit {lines : List Text} {fragments : List (List Text)}
    (all : List.Forall₂ FragmentsOf lines fragments) :
    ∀ fragment ∈ fragments.flatten,
      0 < estimateTokens fragment ∧ estimateTokens fragment ≤ chunkSize := by
  induction all with
  | nil => nofun
  | cons of rest ih =>
    rw [List.flatten_cons]
    refine List.forall_mem_append.mpr ⟨fun fragment member => ?_, ih⟩
    obtain ⟨some, fits⟩ := of.each fragment member
    exact ⟨estimateTokens_pos some, fits⟩

/-! ## Packing -/

/-- The state of the loop is a packer whose closed groups are joined. -/
structure Packs (state : ChunkState) (packer : Packer Text) : Prop where
  chunks : state.chunks = packer.done.map joinParts
  parts : state.currentChunkParts = packer.filling
  tokens : state.currentTokens = packer.weight estimateTokens

theorem appendFragment_packs {state : ChunkState} {packer : Packer Text}
    (packs : Packs state packer) (bounded : state.chunks.length ≤ maxChunks) (fragment : Text) :
    appendFragment state fragment = .error .tooLarge ∧
        maxChunks < (packer.fill estimateTokens chunkSize fragment).groups.length ∨
      ∃ next, appendFragment state fragment = .ok next ∧
        Packs next (packer.fill estimateTokens chunkSize fragment) ∧
        next.chunks.length ≤ maxChunks := by
  obtain ⟨chunks, parts, tokens⟩ := packs
  unfold appendFragment Packer.fill
  simp only [chunks, parts, tokens] at bounded ⊢
  by_cases full : chunkSize ≤ packer.weight estimateTokens + estimateTokens fragment
  · simp only [if_pos full]
    by_cases many : maxChunks < (packer.done.map joinParts ++
        [joinParts (packer.filling ++ [fragment])]).length
    · refine .inl ⟨if_pos many, ?_⟩
      simpa [Packer.groups] using many
    · refine .inr ⟨_, if_neg many, ⟨?_, rfl, rfl⟩, Nat.le_of_not_lt many⟩
      rw [List.map_append]
      rfl
  · simp only [if_neg full]
    refine .inr ⟨_, rfl, ⟨rfl, rfl, ?_⟩, bounded⟩
    simp [Packer.weight]

theorem addFragment_packs {state : ChunkState} {packer : Packer Text}
    (packs : Packs state packer) (bounded : state.chunks.length ≤ maxChunks) (fragment : Text) :
    addFragment state fragment = .error .tooLarge ∧
        maxChunks < (packer.push estimateTokens chunkSize fragment).groups.length ∨
      ∃ next, addFragment state fragment = .ok next ∧
        Packs next (packer.push estimateTokens chunkSize fragment) ∧
        next.chunks.length ≤ maxChunks := by
  have test : (state.currentChunkParts ≠ [] ∧
      chunkSize < state.currentTokens + estimateTokens fragment) ↔
        packer.Overflows estimateTokens chunkSize fragment := by
    rw [packs.parts, packs.tokens]
    rfl
  unfold addFragment Packer.push
  simp only [test]
  by_cases overflows : packer.Overflows estimateTokens chunkSize fragment
  · simp only [if_pos overflows]
    have closed : Packs ⟨state.chunks ++ [joinParts state.currentChunkParts], [], 0⟩
        packer.close := by
      refine ⟨?_, rfl, rfl⟩
      rw [packs.chunks, packs.parts, Packer.close, List.map_append]
      rfl
    by_cases many : maxChunks ≤ (state.chunks ++ [joinParts state.currentChunkParts]).length
    · refine .inl ⟨if_pos many, ?_⟩
      have length := congrArg List.length closed.chunks
      rw [List.length_map] at length
      rw [Packer.fill_groups, List.length_append, ← length, List.length_singleton]
      exact Nat.lt_succ_of_le many
    · rw [if_neg many]
      exact appendFragment_packs closed (Nat.le_of_not_le many) fragment
  · simp only [if_neg overflows]
    exact appendFragment_packs packs bounded fragment

theorem flushChunks_packs {state : ChunkState} {packer : Packer Text}
    (packs : Packs state packer) :
    flushChunks state =
      if packer.groups.length ≤ maxChunks then .ok (packer.groups.map joinParts)
      else .error .tooLarge := by
  have chunks : (if state.currentChunkParts ≠ [] then
      state.chunks ++ [joinParts state.currentChunkParts] else state.chunks) =
        packer.groups.map joinParts := by
    rw [packs.chunks, packs.parts, Packer.groups]
    by_cases empty : packer.filling = []
    · rw [if_neg (not_not_intro empty), if_pos empty]
    · rw [if_pos empty, if_neg empty, List.map_append]
      rfl
  rw [flushChunks, chunks, List.length_map]
  by_cases many : maxChunks < packer.groups.length
  · rw [if_pos many, if_neg (Nat.not_le_of_lt many)]
  · rw [if_neg many, if_pos (Nat.le_of_not_lt many)]

/-- The loop with its end packs the fragments, or refuses them. -/
theorem foldlM_addFragment (fragments : List Text) {state : ChunkState} {packer : Packer Text}
    (packs : Packs state packer) (bounded : state.chunks.length ≤ maxChunks) :
    (fragments.foldlM addFragment state >>= flushChunks) =
      let packed := fragments.foldl (Packer.push estimateTokens chunkSize) packer
      if packed.groups.length ≤ maxChunks then .ok (packed.groups.map joinParts)
      else .error .tooLarge := by
  induction fragments generalizing state packer with
  | nil => exact flushChunks_packs packs
  | cons fragment rest ih =>
    rw [List.foldlM_cons, List.foldl_cons]
    obtain ⟨refused, many⟩ | ⟨next, ok, packs', bounded'⟩ :=
      addFragment_packs packs bounded fragment
    · have more := @Packer.foldl_length _ estimateTokens chunkSize rest
        (packer.push estimateTokens chunkSize fragment)
      rw [refused, if_neg (by omega)]
      rfl
    · rw [ok]
      exact ih packs' bounded'

/-- The input is packed whole into the chunks that greedy packing makes of its fragments,
or refused where these are too many. -/
theorem splitIntoChunks_complete (wording : Wording P) (messages : List (Turn P)) :
    ∃ fragments, List.Forall₂ FragmentsOf (linesOf wording messages) fragments ∧
      ∃ groups, Packed estimateTokens chunkSize groups ∧ groups.flatten = fragments.flatten ∧
        (∀ other, Packed estimateTokens chunkSize other → other.flatten = fragments.flatten →
          other = groups) ∧
        splitIntoChunks wording messages =
          if groups.length ≤ maxChunks then .ok (groups.map joinParts) else .error .tooLarge := by
  obtain ⟨fragments, all⟩ := fragments_all (linesOf wording messages)
  have sound := Packer.sound_empty.foldl (fragments_fit all)
  have flat := @Packer.foldl_flatten _ estimateTokens chunkSize fragments.flatten .empty
  have start : Packs ⟨[], [], 0⟩ .empty := ⟨rfl, rfl, rfl⟩
  have packed := foldlM_addFragment fragments.flatten start (by decide)
  refine ⟨fragments, all, _, sound.packed, flat, ?_, ?_⟩
  · exact fun other packing same => packing.unique sound.packed (same.trans flat.symm)
  · rw [← packed, splitIntoChunks]
    split
    · next none =>
      subst none
      cases all
      rfl
    · rw [foldlM_addMessage, foldlM_addLine all]

end BobbyBotique.Context
