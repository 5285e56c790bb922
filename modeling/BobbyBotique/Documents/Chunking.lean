import BobbyBotique.Foundation.Overlap
import Mathlib.Algebra.Order.Field.Rat
import Mathlib.Data.List.Infix

/-!
# The chunks of a document

A text is cut at the first of four separators that it contains, and its parts are
merged into chunks that begin with the tail of the chunk before; what no separator
makes short enough is cut hard.  Long documents are cut twice, into parents and
into their children.
-/

namespace BobbyBotique.Documents

abbrev Text := List Char

/-- The checked limits of a chunker. -/
structure ChunkLimits where
  maxChars : Nat
  overlapChars : Nat
  overlaps : overlapChars < maxChars

/-- `overlap_ratio`: whether it is in range, and `int(max_chars * overlap_ratio)`, a
product of floats. -/
structure OverlapRatio where
  inRange : Bool
  chars : Nat → Nat
  chars_lt : inRange = true → ∀ maxChars, 0 < maxChars → chars maxChars < maxChars

/-- `overlap_ratio=0.1`. -/
def OverlapRatio.tenth : OverlapRatio where
  inRange := true
  chars maxChars := maxChars / 10
  chars_lt _ maxChars positive := Nat.div_lt_self positive (by decide)

inductive ChunkingError where
  | valueError (message : String)
  deriving DecidableEq, Repr

/-- `_estimate_tokens`. -/
def estimateTokens (text : Text) : Nat := (2 * text.length + 6) / 7

/-- `int(tokens * _CHARS_PER_TOKEN)`. -/
def charsOf (tokens : Nat) : Nat := 7 * tokens / 2

/-- `str.split(separator)`; the counter runs over the rest of a separator. -/
def splitAt (separator : Text) : Nat → Text → List Text
  | _, [] => [[]]
  | skip + 1, _ :: rest => splitAt separator skip rest
  | 0, c :: rest =>
    if separator.isPrefixOf (c :: rest) then
      [] :: splitAt separator (separator.length - 1) rest
    else
      match splitAt separator 0 rest with
      | [] => [[c]]
      | part :: parts => (c :: part) :: parts

def splitOn (separator text : Text) : List Text := splitAt separator 0 text

/-- `_hard_split`. -/
def hardSplit (limits : ChunkLimits) (text : Text) : List Text :=
  if text = [] then []
  else
    let chunk := strip (text.take limits.maxChars)
    let later :=
      if limits.maxChars < text.length then
        hardSplit limits (text.drop (limits.maxChars - limits.overlapChars))
      else []
    if chunk = [] then later else chunk :: later
termination_by text.length
decreasing_by
  have := limits.overlaps
  rw [List.length_drop]
  omega

/-- The chunks and the current text of `_merge_parts`. -/
structure MergeState where
  chunks : List Text
  current : Text

def startCurrent (limits : ChunkLimits) (separator part : Text) (chunks : List Text) : Text :=
  match chunks.getLast? with
  | some previous =>
    if 0 < limits.overlapChars then
      previous.drop (previous.length - limits.overlapChars) ++ separator ++ part
    else part
  | none => part

/-- One part of `_merge_parts`. -/
def mergePart (limits : ChunkLimits) (separator : Text) (state : MergeState) (part : Text) :
    MergeState :=
  let candidate := if state.current = [] then part else state.current ++ separator ++ part
  if candidate.length ≤ limits.maxChars then { state with current := candidate }
  else
    let chunks := if state.current = [] then state.chunks
      else state.chunks ++ [strip state.current]
    let current := startCurrent limits separator part chunks
    if limits.maxChars < current.length then
      let subChunks := hardSplit limits current
      ⟨chunks ++ subChunks.dropLast, subChunks.getLast?.getD []⟩
    else ⟨chunks, current⟩

def mergeParts (limits : ChunkLimits) (separator : Text) (parts : List Text) : List Text :=
  let state := parts.foldl (mergePart limits separator) ⟨[], []⟩
  if strip state.current = [] then state.chunks else state.chunks ++ [strip state.current]

def separators : List Text := ["\n\n".toList, "\n".toList, ". ".toList, " ".toList]

/-- The loop over the separators, and the hard split behind it. -/
def splitAtSeparators (limits : ChunkLimits) (text : Text) : List Text → List Text
  | [] => hardSplit limits text
  | separator :: others =>
    let parts := splitOn separator text
    let chunks := mergeParts limits separator parts
    if 1 < parts.length ∧ chunks ≠ [] then chunks else splitAtSeparators limits text others

/-- The body of `recursive_chunk` behind its checks. -/
def chunksWithin (limits : ChunkLimits) (text : Text) : List Text :=
  if strip text = [] then []
  else if text.length ≤ limits.maxChars then [strip text]
  else splitAtSeparators limits text separators

theorem charsOf_pos {tokens : Nat} (positive : 0 < tokens) : 0 < charsOf tokens := by
  unfold charsOf
  omega

def limitsOf (maxTokens : Nat) (positive : 0 < maxTokens) (overlapRatio : OverlapRatio)
    (valid : overlapRatio.inRange = true) : ChunkLimits where
  maxChars := charsOf maxTokens
  overlapChars := overlapRatio.chars (charsOf maxTokens)
  overlaps := overlapRatio.chars_lt valid _ (charsOf_pos positive)

def recursiveChunk (text : Text) (maxTokens : Int) (overlapRatio : OverlapRatio) :
    Except ChunkingError (List Text) :=
  if positive : 0 < maxTokens.toNat then
    if valid : overlapRatio.inRange = true then
      .ok (chunksWithin (limitsOf maxTokens.toNat positive overlapRatio valid) text)
    else .error (.valueError
      "overlap_ratio must be between 0 (inclusive) and 1 (exclusive)")
  else .error (.valueError "max_tokens must be positive")

/-! ## Parents and children -/

structure HierarchicalChunk where
  parent : Text
  children : List Text

/-- The limits of `hierarchical_chunk`: 256 and 1024 tokens. -/
def childLimits : ChunkLimits := limitsOf 256 (by decide) .tenth rfl

def parentLimits : ChunkLimits := limitsOf 1024 (by decide) .tenth rfl

def hierarchicalChunk (text : Text) : List HierarchicalChunk :=
  (chunksWithin parentLimits text).map fun parent =>
    ⟨parent, chunksWithin childLimits parent⟩

/-! ## Chunks of a text that is not blank -/

theorem strip_eq_nil {text : Text} : strip text = [] ↔ ∀ c ∈ text, isSpace c = true :=
  strip_eq_nil_iff.trans visible_eq_nil

theorem strip_ne_nil {text : Text} : strip text ≠ [] ↔ ∃ c ∈ text, isSpace c = false := by
  rw [ne_eq, strip_eq_nil]
  simp

theorem hardSplit_eq (limits : ChunkLimits) {text : Text} (some : text ≠ []) :
    hardSplit limits text =
      (if strip (text.take limits.maxChars) = [] then []
        else [strip (text.take limits.maxChars)]) ++
      if limits.maxChars < text.length then
        hardSplit limits (text.drop (limits.maxChars - limits.overlapChars))
      else [] := by
  rw [hardSplit, if_neg some]
  simp only
  split
  · rw [List.nil_append]
  · rw [List.singleton_append]

/-- A rule for the windows of `_hard_split`, first to last. -/
theorem hardSplit_induction (limits : ChunkLimits) {holds : Text → Prop} (empty : holds [])
    (step : ∀ text, text ≠ [] → (limits.maxChars < text.length →
        holds (text.drop (limits.maxChars - limits.overlapChars))) → holds text)
    (text : Text) : holds text := by
  induction measured : text.length using Nat.strong_induction_on generalizing text with
  | _ size ih =>
    by_cases none : text = []
    · rw [none]
      exact empty
    · refine step text none fun longer => ?_
      have overlaps := limits.overlaps
      have positive := List.length_pos_iff.mpr none
      refine ih _ ?_ _ rfl
      rw [List.length_drop]
      omega

theorem hardSplit_ne_nil {limits : ChunkLimits} {text : Text} :
    strip text ≠ [] → hardSplit limits text ≠ [] := by
  induction text using hardSplit_induction limits with
  | empty => exact fun visible => absurd rfl visible
  | step text some ih =>
    intro visible
    rw [hardSplit_eq limits some]
    by_cases blank : strip (text.take limits.maxChars) = []
    · -- What is visible stands behind the window, so the next one is cut too.
      obtain ⟨c, member, shown⟩ := strip_ne_nil.mp visible
      have behind : c ∈ text.drop limits.maxChars := by
        rw [← List.take_append_drop limits.maxChars text] at member
        rcases List.mem_append.mp member with early | late
        · rw [strip_eq_nil.mp blank c early] at shown
          cases shown
        · exact late
      have longer : limits.maxChars < text.length := by
        by_contra short
        rw [List.drop_of_length_le (Nat.le_of_not_lt short)] at behind
        cases behind
      have later : c ∈ text.drop (limits.maxChars - limits.overlapChars) :=
        (List.drop_sublist_drop_left text (Nat.sub_le _ _)).mem behind
      rw [if_pos longer]
      exact List.append_ne_nil_of_right_ne_nil _ (ih longer (strip_ne_nil.mpr ⟨c, later, shown⟩))
    · rw [if_neg blank]
      exact List.append_ne_nil_of_left_ne_nil (List.cons_ne_nil _ _) _

theorem splitAtSeparators_ne_nil {limits : ChunkLimits} {text : Text} (visible : strip text ≠ [])
    (among : List Text) : splitAtSeparators limits text among ≠ [] := by
  induction among with
  | nil => exact hardSplit_ne_nil visible
  | cons separator others ih =>
    rw [splitAtSeparators]
    split
    · next found => exact found.2
    · exact ih

theorem chunksWithin_ne_nil {limits : ChunkLimits} {text : Text} (visible : strip text ≠ []) :
    chunksWithin limits text ≠ [] := by
  rw [chunksWithin, if_neg visible]
  split
  · exact List.cons_ne_nil _ _
  · exact splitAtSeparators_ne_nil visible separators

theorem hierarchicalChunk_ne_nil {text : Text} (visible : strip text ≠ []) :
    hierarchicalChunk text ≠ [] := by
  rw [hierarchicalChunk, ne_eq, List.map_eq_nil_iff]
  exact chunksWithin_ne_nil visible

end BobbyBotique.Documents
