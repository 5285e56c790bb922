import BobbyBotique.Foundation.Provenance
import BobbyBotique.Foundation.Text
import BobbyBotique.Foundation.Utf8
import Mathlib.Algebra.GroupWithZero.Nat

/-!
# Cleaning text for speech

`_clean_text_for_speech` and `clean_speech_parts`.  The rules are given by the
matches that the regular expressions find; a rule deletes letters only.
-/

namespace BobbyBotique.Speech

abbrev Text := List Char

structure TTSRequestError where
  reason : String
  deriving DecidableEq

def maxCleanupSources : Nat := 32

def maxCleanupBytes : Nat := 256 * 1024

/-- A match: its span, and the span of each group. -/
structure Match where
  start : Nat
  stop : Nat
  span : Nat → Nat × Nat

/-- `_cleanup_kept_span`. -/
def cleanupKeptSpan (m : Match) (group length : Option Nat) : Nat × Nat :=
  match group with
  | none => (m.start, m.start)
  | some group =>
    ((m.span group).1,
      match length with
      | some length => min (m.span group).2 ((m.span group).1 + length)
      | none => (m.span group).2)

/-- What a rule does at a match. -/
def Match.cut (m : Match) (group length : Option Nat) : Cut where
  start := m.start
  stop := m.stop
  keptStart := (cleanupKeptSpan m group length).1
  keptStop := (cleanupKeptSpan m group length).2

/-- A rule of `_SPEECH_CLEAN_RULES`: the matches of its pattern, in their order and apart. -/
structure CleanRule where
  finditer : Text → List Match
  group : Option Nat
  length : Option Nat
  spaced : ∀ text, Cut.Spaced text.length 0 ((finditer text).map (Match.cut · group length))

/-- `pattern.sub`: every match gives way to its replacement. -/
def sub (replace : Match → Text) (text : Text) : Nat → List Match → Text
  | cursor, [] => text.drop cursor
  | cursor, m :: rest => slice text cursor m.start ++ replace m ++ sub replace text m.stop rest

namespace CleanRule

/-- `match.string[slice(*_cleanup_kept_span(match, keep_group, keep_length))]`. -/
def replace (rule : CleanRule) (text : Text) (m : Match) : Text :=
  slice text (cleanupKeptSpan m rule.group rule.length).1
    (cleanupKeptSpan m rule.group rule.length).2

/-- One turn of the loop over the matches: texts, owners and cursor. -/
def advance (rule : CleanRule) (text : Text) (origins : List Nat)
    (state : Text × List Nat × Nat) (m : Match) : Text × List Nat × Nat :=
  let (start, stop) := cleanupKeptSpan m rule.group rule.length
  let (parts, owners, cursor) := state
  (parts ++ (slice text cursor m.start ++ slice text start stop),
    owners ++ slice origins cursor m.start ++ slice origins start stop, m.stop)

/-- One rule over a text and its owners. -/
def apply (rule : CleanRule) (text : Text) (origins : List Nat) : Text × List Nat :=
  let (parts, owners, cursor) :=
    (rule.finditer text).foldl (rule.advance text origins) ([], [], 0)
  (parts ++ text.drop cursor, owners ++ origins.drop cursor)

end CleanRule

variable (rules : List CleanRule)

/-- `_clean_text_for_speech`. -/
def cleanTextForSpeech (text : Text) : Text :=
  strip (rules.foldl (fun text rule => sub (rule.replace text) text 0 (rule.finditer text)) text)

/-- `rstrip`. -/
def rstrip (text : Text) : Text := (lstrip text.reverse).reverse

/-- The loop over the sources: each takes what it owns from the cursor on. -/
def slots (text : Text) (origins : List Nat) : Nat → Nat → Nat → List Text
  | _, _, 0 => []
  | source, start, count + 1 =>
    let cursor := start + ((origins.drop start).takeWhile (· == source)).length
    slice text start cursor :: slots text origins (source + 1) cursor count

/-- The owner of each letter of the joined sources. -/
def originsOf (parts : List Text) : List Nat :=
  (parts.zipIdx.map fun part => List.replicate part.1.length part.2).flatten

/-- `clean_speech_parts`. -/
def cleanSpeechParts (parts : List Text) : Except TTSRequestError (List Text) :=
  if parts.length > maxCleanupSources ∨ ∃ part ∈ parts, part.length > maxCleanupBytes then
    .error ⟨"input_too_large"⟩
  else if (parts.map fun part => (Utf8.encode part).length).sum > maxCleanupBytes then
    .error ⟨"input_too_large"⟩
  else if parts.length ≤ 1 then .ok (parts.map (cleanTextForSpeech rules))
  else
    let (text, origins) := rules.foldl (fun state rule => rule.apply state.1 state.2)
      (parts.flatten, originsOf parts)
    let leading := text.length - (lstrip text).length
    let trailing := (rstrip text).length
    .ok (slots (slice text leading trailing) (slice origins leading trailing) 0 0 parts.length)

/-! ## Both paths cut alike -/

namespace CleanRule

variable (rule : CleanRule)

/-- What the rule does to a text. -/
def cuts (text : Text) : List Cut :=
  (rule.finditer text).map (Match.cut · rule.group rule.length)

theorem foldl_advance (text : Text) (origins : List Nat) (matches' : List Match)
    (parts : Text) (owners : List Nat) (cursor : Nat) :
    let done := matches'.foldl (rule.advance text origins) (parts, owners, cursor)
    let cuts := matches'.map (Match.cut · rule.group rule.length)
    done.1 ++ text.drop done.2.2 = parts ++ Cut.keep text cursor cuts ∧
      done.2.1 ++ origins.drop done.2.2 = owners ++ Cut.keep origins cursor cuts := by
  induction matches' generalizing parts owners cursor with
  | nil => exact ⟨rfl, rfl⟩
  | cons m rest ih =>
    obtain ⟨letters, owned⟩ := ih
      (parts ++ (slice text cursor m.start ++
        slice text (cleanupKeptSpan m rule.group rule.length).1
          (cleanupKeptSpan m rule.group rule.length).2))
      (owners ++ slice origins cursor m.start ++ slice origins
        (cleanupKeptSpan m rule.group rule.length).1 (cleanupKeptSpan m rule.group rule.length).2)
      m.stop
    constructor
    · refine letters.trans ?_
      simp only [List.map_cons, Cut.keep, Match.cut, List.append_assoc]
    · refine owned.trans ?_
      simp only [List.map_cons, Cut.keep, Match.cut, List.append_assoc]

theorem apply_eq (text : Text) (origins : List Nat) :
    rule.apply text origins =
      (Cut.keep text 0 (rule.cuts text), Cut.keep origins 0 (rule.cuts text)) := by
  obtain ⟨letters, owned⟩ := rule.foldl_advance text origins (rule.finditer text) [] [] 0
  exact Prod.ext letters owned

theorem sub_eq (text : Text) (cursor : Nat) (matches' : List Match) :
    sub (rule.replace text) text cursor matches' =
      Cut.keep text cursor (matches'.map (Match.cut · rule.group rule.length)) := by
  induction matches' generalizing cursor with
  | nil => rfl
  | cons m rest ih => rw [sub, ih, List.map_cons, Cut.keep, replace, Match.cut]

end CleanRule

/-- The rules over letters with owners keep some of them, and go the plain path. -/
theorem foldl_apply (rules : List CleanRule) (owned : List (Char × Nat)) :
    ∃ kept : List (Char × Nat), kept.Sublist owned ∧
      rules.foldl (fun state rule => rule.apply state.1 state.2)
          (owned.map Prod.fst, owned.map Prod.snd) = (kept.map Prod.fst, kept.map Prod.snd) ∧
      rules.foldl (fun text rule => sub (rule.replace text) text 0 (rule.finditer text))
          (owned.map Prod.fst) = kept.map Prod.fst := by
  induction rules generalizing owned with
  | nil => exact ⟨owned, .refl _, rfl, rfl⟩
  | cons rule rest ih =>
    have fewer : (Cut.keep owned 0 (rule.cuts (owned.map Prod.fst))).Sublist owned :=
      Cut.keep_sublist owned (rule.spaced _)
    obtain ⟨kept, within, carried, plain⟩ :=
      ih (Cut.keep owned 0 (rule.cuts (owned.map Prod.fst)))
    refine ⟨kept, within.trans fewer, ?_, ?_⟩
    · rw [List.foldl_cons, rule.apply_eq, Cut.keep_map, Cut.keep_map]
      exact carried
    · rw [List.foldl_cons, rule.sub_eq]
      change List.foldl _ (Cut.keep _ 0 (rule.cuts _)) rest = _
      rw [Cut.keep_map]
      exact plain

/-! ## The final strip -/

theorem rstrip_append (blanks : Text) {text : Text} (visible : ∃ c ∈ text, isSpace c = false) :
    rstrip (blanks ++ text) = blanks ++ rstrip text := by
  have stops : lstrip text.reverse ≠ [] := by
    obtain ⟨c, member, shown⟩ := visible
    exact List.ne_nil_of_mem (mem_lstrip shown (List.mem_reverse.mpr member))
  rw [rstrip, rstrip, List.reverse_append, lstrip, List.dropWhile_append]
  change (if (lstrip text.reverse).isEmpty = true then _ else lstrip text.reverse ++ _).reverse = _
  rw [if_neg (by simpa using stops), List.reverse_append, List.reverse_reverse]

theorem rstrip_within (text : Text) : rstrip text <+: text := by
  have behind : lstrip text.reverse <:+ text.reverse := List.dropWhile_suffix isSpace
  have front := List.reverse_prefix.mpr behind
  rwa [List.reverse_reverse] at front

theorem slice_strip (text : Text) :
    slice text (text.length - (lstrip text).length) (rstrip text).length = strip text := by
  rw [slice, ← List.prefix_iff_eq_take.mp (rstrip_within text)]
  have whole := List.takeWhile_append_dropWhile (p := isSpace) (l := text)
  change _ ++ lstrip text = text at whole
  have front : text.length - (lstrip text).length = (text.takeWhile isSpace).length := by
    have lengths := congrArg List.length whole
    rw [List.length_append] at lengths
    omega
  rw [front]
  cases rest : lstrip text with
  | nil =>
    have none : rstrip text = [] := by
      rw [rstrip, List.reverse_eq_nil_iff, lstrip, List.dropWhile_eq_nil_iff]
      intro c member
      exact List.dropWhile_eq_nil_iff.mp rest c (List.mem_reverse.mp member)
    rw [none, strip, rest]
    simp [lstrip]
  | cons c letters =>
    have shown : isSpace c = false := by
      have head := List.head?_dropWhile_not isSpace text
      rw [show text.dropWhile isSpace = c :: letters from rest] at head
      exact head
    have trimmed := rstrip_append (text.takeWhile isSpace)
      ⟨c, List.mem_cons_self (l := letters), shown⟩
    rw [← rest, whole] at trimmed
    rw [trimmed, List.drop_left, strip, rstrip]

/-! ## One slot for each source -/

/-- The sources with the owner of each letter. -/
def ownedParts (parts : List Text) (first : Nat) : List (Char × Nat) :=
  ((parts.zipIdx first).map fun part => part.1.map fun letter => (letter, part.2)).flatten

theorem ownedParts_fst (parts : List Text) (first : Nat) :
    (ownedParts parts first).map Prod.fst = parts.flatten := by
  induction parts generalizing first with
  | nil => rfl
  | cons part rest ih =>
    have letters : (part.map fun letter => (letter, first)).map Prod.fst = part := by
      rw [List.map_map]
      exact List.map_id part
    rw [ownedParts, List.zipIdx_cons, List.map_cons, List.flatten_cons, List.map_append, letters,
      List.flatten_cons]
    exact congrArg (part ++ ·) (ih (first + 1))

theorem ownedParts_snd (parts : List Text) :
    (ownedParts parts 0).map Prod.snd = originsOf parts := by
  rw [ownedParts, originsOf, List.map_flatten, List.map_map]
  refine congrArg List.flatten (List.map_congr_left fun part _ => ?_)
  exact (List.map_map ..).trans List.map_const'

theorem ownedParts_ascending (parts : List Text) (first : Nat) :
    Ascending first (ownedParts parts first) ∧
      ∀ entry ∈ ownedParts parts first, entry.2 < first + parts.length := by
  induction parts generalizing first with
  | nil =>
    exact ⟨⟨List.Pairwise.nil, fun entry absurd => nomatch absurd⟩,
      fun entry absurd => nomatch absurd⟩
  | cons part rest ih =>
    obtain ⟨⟨paired, above⟩, below⟩ := ih (first + 1)
    have split : ownedParts (part :: rest) first =
        (part.map fun letter => (letter, first)) ++ ownedParts rest (first + 1) := rfl
    rw [split]
    refine ⟨⟨List.pairwise_append.mpr ⟨?_, paired, ?_⟩, ?_⟩, ?_⟩
    · exact List.pairwise_map.mpr (List.pairwise_of_forall fun _ _ => Nat.le_refl first)
    · intro entry own other later
      obtain ⟨letter, _, rfl⟩ := List.mem_map.mp own
      exact (Nat.le_succ first).trans (above other later)
    · intro entry member
      rcases List.mem_append.mp member with own | later
      · obtain ⟨letter, _, rfl⟩ := List.mem_map.mp own
        exact Nat.le_refl first
      · exact (Nat.le_succ first).trans (above entry later)
    · intro entry member
      rw [List.length_cons]
      rcases List.mem_append.mp member with own | later
      · obtain ⟨letter, _, rfl⟩ := List.mem_map.mp own
        dsimp only
        omega
      · have := below entry later
        omega

/-- The letters of one source are those it owns. -/
theorem ownedBy_ownedParts (parts : List Text) (first : Nat) :
    ((List.range' first parts.length).map fun owner =>
      (ownedBy (ownedParts parts first) owner).map Prod.fst) = parts := by
  induction parts generalizing first with
  | nil => rfl
  | cons part rest ih =>
    have split : ∀ owner, ownedBy (ownedParts (part :: rest) first) owner =
        ownedBy (part.map fun letter => (letter, first)) owner ++
          ownedBy (ownedParts rest (first + 1)) owner :=
      fun owner => List.filter_append ..
    rw [List.length_cons, List.range'_succ, List.map_cons]
    refine congrArg₂ List.cons ?_ ?_
    · have own : ownedBy (part.map fun letter => (letter, first)) first =
          part.map fun letter => (letter, first) := by
        refine List.filter_eq_self.mpr fun entry member => ?_
        obtain ⟨letter, _, rfl⟩ := List.mem_map.mp member
        exact beq_self_eq_true first
      have later : ownedBy (ownedParts rest (first + 1)) first = [] := by
        refine List.filter_eq_nil_iff.mpr fun entry member same => ?_
        have above := (ownedParts_ascending rest (first + 1)).1.2 entry member
        have owner := beq_iff_eq.mp same
        omega
      rw [split, own, later, List.append_nil, List.map_map]
      exact List.map_id part
    · refine (List.map_congr_left fun owner member => ?_).trans (ih (first + 1))
      have past := (List.mem_range'_1.mp member).1
      have none : ownedBy (part.map fun letter => (letter, first)) owner = [] := by
        refine List.filter_eq_nil_iff.mpr fun entry own same => ?_
        obtain ⟨letter, _, rfl⟩ := List.mem_map.mp own
        have owned := beq_iff_eq.mp same
        dsimp only at owned
        omega
      rw [split, none, List.nil_append]

theorem slots_eq (owned : List (Char × Nat)) (source start count : Nat)
    (ascending : Ascending source (owned.drop start)) :
    slots (owned.map Prod.fst) (owned.map Prod.snd) source start count =
      (List.range' source count).map fun owner =>
        (ownedBy (owned.drop start) owner).map Prod.fst := by
  induction count generalizing source start with
  | zero => rfl
  | succ count ih =>
    obtain ⟨taken, dropped⟩ := ascending.front
    -- The cursor stops behind the letters of this source.
    have run : (((owned.map Prod.snd).drop start).takeWhile (· == source)).length =
        ((owned.drop start).takeWhile (isOwned source)).length := by
      rw [← List.map_drop, List.takeWhile_map, List.length_map]
      rfl
    have front : slice owned start
        (start + ((owned.drop start).takeWhile (isOwned source)).length) =
          ownedBy (owned.drop start) source := by
      rw [slice, List.drop_take, Nat.add_sub_cancel_left, ← taken]
      exact (List.prefix_iff_eq_take.mp (List.takeWhile_prefix _)).symm
    have behind : owned.drop (start + ((owned.drop start).takeWhile (isOwned source)).length) =
        (owned.drop start).dropWhile (isOwned source) := by
      rw [← List.drop_drop]
      have whole := @List.takeWhile_append_dropWhile _ (isOwned source) (owned.drop start)
      exact (congrArg (List.drop _) whole.symm).trans List.drop_left
    rw [slots, run, List.range'_succ, List.map_cons]
    refine congrArg₂ List.cons ?_ ?_
    · rw [Cut.slice_map, front]
    · rw [ih _ _ (behind ▸ dropped), behind]
      refine List.map_congr_left fun owner member => ?_
      have past := (List.mem_range'_1.mp member).1
      rw [ownedBy_dropWhile (by omega)]

/-- The sources are within the limits of `clean_speech_parts`. -/
def WithinLimits (parts : List Text) : Prop :=
  parts.length ≤ maxCleanupSources ∧ (∀ part ∈ parts, part.length ≤ maxCleanupBytes) ∧
    (parts.map fun part => (Utf8.encode part).length).sum ≤ maxCleanupBytes

instance (parts : List Text) : Decidable (WithinLimits parts) :=
  inferInstanceAs (Decidable (_ ∧ _ ∧ _))

theorem cleanTextForSpeech_sublist (text : Text) :
    (cleanTextForSpeech rules text).Sublist text := by
  obtain ⟨kept, fewer, _, plain⟩ := foldl_apply rules (text.map fun letter => (letter, 0))
  have letters : (text.map fun letter => (letter, 0)).map Prod.fst = text := by
    rw [List.map_map]
    exact List.map_id text
  have cleaned := fewer.map Prod.fst
  rw [letters] at cleaned plain
  rw [cleanTextForSpeech, plain]
  exact (strip_isInfix _).sublist.trans cleaned

/-- The path with owners gives each source the letters that are left of it. -/
theorem slots_cleaned (parts : List Text) :
    let state := rules.foldl (fun state rule => rule.apply state.1 state.2)
      (parts.flatten, originsOf parts)
    let leading := state.1.length - (lstrip state.1).length
    let trailing := (rstrip state.1).length
    let result := slots (slice state.1 leading trailing) (slice state.2 leading trailing) 0 0
      parts.length
    result.flatten = cleanTextForSpeech rules parts.flatten ∧
      List.Forall₂ List.Sublist result parts := by
  obtain ⟨kept, fewer, carried, plain⟩ := foldl_apply rules (ownedParts parts 0)
  rw [ownedParts_fst, ownedParts_snd] at carried
  rw [ownedParts_fst] at plain
  rw [carried]
  dsimp only
  rw [Cut.slice_map, Cut.slice_map]
  have text := slice_strip (kept.map Prod.fst)
  rw [Cut.slice_map] at text
  generalize trimmed : slice kept ((kept.map Prod.fst).length - (lstrip (kept.map Prod.fst)).length)
    (rstrip (kept.map Prod.fst)).length = owned at text ⊢
  have within : owned.Sublist (ownedParts parts 0) := by
    rw [← trimmed]
    exact ((List.drop_sublist _ _).trans (List.take_sublist _ _)).trans fewer
  obtain ⟨ascending, below⟩ := ownedParts_ascending parts 0
  have order : Ascending 0 (owned.drop 0) := ascending.sublist within
  rw [slots_eq owned 0 0 parts.length order, List.drop_zero]
  constructor
  · have whole := Ascending.flatten parts.length order fun entry member =>
      below entry (within.subset member)
    have letters := congrArg (List.map Prod.fst) whole
    rw [List.map_flatten, List.map_map] at letters
    rw [cleanTextForSpeech, plain, ← text]
    exact letters
  · conv_rhs => rw [← ownedBy_ownedParts parts 0]
    rw [List.forall₂_map_left_iff, List.forall₂_map_right_iff]
    exact List.forall₂_same.mpr fun owner _ => (within.filter _).map Prod.fst

/--
For every family of rules and all sources within the limits: one slot for each
source, with letters of this source in their order, and the slots one after the
other are the cleaned text of the joined sources.
-/
theorem cleanSpeechParts_owned (parts : List Text) :
    if WithinLimits parts then
      ∃ result, cleanSpeechParts rules parts = .ok result ∧
        result.flatten = cleanTextForSpeech rules parts.flatten ∧
        List.Forall₂ List.Sublist result parts
    else cleanSpeechParts rules parts = .error ⟨"input_too_large"⟩ := by
  by_cases within : WithinLimits parts
  · rw [if_pos within]
    obtain ⟨few, short, small⟩ := within
    have passes : ¬(parts.length > maxCleanupSources ∨
        ∃ part ∈ parts, part.length > maxCleanupBytes) := by
      rintro (many | ⟨part, member, long⟩)
      · exact absurd many (Nat.not_lt.mpr few)
      · exact absurd long (Nat.not_lt.mpr (short part member))
    rw [cleanSpeechParts, if_neg passes, if_neg (Nat.not_lt.mpr small)]
    by_cases single : parts.length ≤ 1
    · rw [if_pos single]
      refine ⟨_, rfl, ?_, ?_⟩
      · match parts, single with
        | [], _ => exact (List.sublist_nil.mp (cleanTextForSpeech_sublist rules [])).symm
        | [part], _ => simp
      · rw [List.forall₂_map_left_iff]
        exact List.forall₂_same.mpr fun part _ => cleanTextForSpeech_sublist rules part
    · rw [if_neg single]
      exact ⟨_, rfl, slots_cleaned rules parts⟩
  · rw [if_neg within, cleanSpeechParts]
    split
    · rfl
    · next passes =>
        obtain ⟨few, short⟩ := not_or.mp passes
        rw [if_pos]
        by_contra small
        exact within ⟨Nat.not_lt.mp few, fun part member =>
          Nat.not_lt.mp fun long => short ⟨part, member, long⟩, Nat.not_lt.mp small⟩

end BobbyBotique.Speech
