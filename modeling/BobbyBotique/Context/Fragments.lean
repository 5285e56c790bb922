import BobbyBotique.Context.Budget
import BobbyBotique.Foundation.Utf8
import Mathlib

/-!
# Cuts of a text at a token limit

The estimate counts bytes, so a text is cut in its UTF-8 form and the cut is moved
back to where the decoder failed.  `truncate_to_token_budget` keeps one prefix and
`_split_text_to_token_limit` all the fragments.
-/

namespace BobbyBotique.Context

open Utf8

inductive TextFailure where
  | valueError (message : String)
  /-- A loop that would run on for ever. -/
  | endless
  deriving DecidableEq, Repr

/-- The loop over `end` of both functions, and the `end` it stops with. -/
def decodeBelow (bytes : List UInt8) (stop : Nat) : Text × Nat :=
  if stop = 0 then ([], 0)
  else
    match failed : decode (bytes.take stop) with
    | .ok fragment => (fragment, stop)
    | .error start => decodeBelow bytes start
termination_by stop
decreasing_by
  have place := decode_error_lt failed
  rw [List.length_take] at place
  omega

/-- The last loop of `truncate_to_token_budget`, over a prefix read from its end. -/
def dropUntilFits (tokenLimit : Nat) (suffix : Text) : Text → Except TextFailure Text
  | [] => if suffix = [] ∨ estimateTokens suffix ≤ tokenLimit then .ok suffix else .error .endless
  | last :: kept =>
    let result := (last :: kept).reverse ++ suffix
    if result = [] ∨ estimateTokens result ≤ tokenLimit then .ok result
    else dropUntilFits tokenLimit suffix kept

/-- `truncate_to_token_budget`. -/
def truncateText (text : Text) (tokenLimit : Int) (suffix : Text) : Except TextFailure Text :=
  if tokenLimit < 0 then .error (.valueError "token_limit must be non-negative")
  else if estimateTokens text ≤ tokenLimit then .ok text
  else if tokenLimit = 0 then .ok []
  else
    let byteBudget := tokenLimit.toNat * 3
    let ending := if byteBudget < (encode suffix).length then [] else suffix
    let encoded := encode text
    let (kept, _) :=
      decodeBelow encoded (min encoded.length (byteBudget - (encode ending).length))
    dropUntilFits tokenLimit.toNat ending kept.reverse

/-- The loop of `_split_text_to_token_limit`. -/
def splitRemaining (maxBytes : Nat) (remaining : List UInt8) : Except TextFailure (List Text) :=
  if remaining = [] then .ok []
  else
    let (fragment, stop) := decodeBelow remaining (min remaining.length maxBytes)
    if stop = 0 then .error (.valueError "could not split UTF-8 summarization input")
    else (splitRemaining maxBytes (remaining.drop stop)).map (fragment :: ·)
termination_by remaining.length
decreasing_by
  rw [List.length_drop]
  have := List.length_pos_iff.mpr ‹remaining ≠ []›
  omega

def splitTextToTokenLimit (text : Text) (tokenLimit : Int) : Except TextFailure (List Text) :=
  if tokenLimit < 1 then .error (.valueError "token_limit must be positive")
  else splitRemaining (tokenLimit.toNat * 3) (encode text)

theorem length_encode (text : Text) : (encode text).length = byteLength text := by
  induction text with
  | nil => rfl
  | cons c rest ih =>
    rw [encode_cons, List.length_append, String.length_utf8EncodeChar, ih]
    rfl

theorem estimateTokens_le {text : Text} {tokenLimit : Nat} (positive : 0 < tokenLimit)
    (bytes : byteLength text ≤ tokenLimit * 3) : estimateTokens text ≤ tokenLimit := by
  rw [estimateTokens_eq]
  split
  · exact Nat.zero_le _
  · omega

/-- The cut moves back to the last whole character. -/
theorem decodeBelow_encode {text : Text} {stop : Nat} (inside : stop ≤ (encode text).length) :
    decodeBelow (encode text) stop = (within stop text, (encode (within stop text)).length) := by
  have least : ∀ {size : Nat}, within size text = [] →
      decodeBelow (encode text) 0 = ([], (encode (within size text)).length) := by
    intro size empty
    rw [decodeBelow, if_pos rfl, empty]
    rfl
  by_cases none : stop = 0
  · have empty : within stop text = [] := by
      by_contra some
      have := List.length_pos_iff.mpr (encode_ne_nil some)
      have := length_within stop text
      omega
    rw [none] at empty ⊢
    rw [least empty, empty]
  · have decoded := decode_take text stop 0
    rw [Nat.min_eq_left inside] at decoded
    rw [decodeBelow, if_neg none]
    split at decoded
    · next whole =>
      split
      · next fragment ok =>
        rw [decode, decoded] at ok
        cases ok
        rw [whole]
      · next start failed =>
        rw [decode, decoded] at failed
        cases failed
    · next cut =>
      split
      · next fragment ok =>
        rw [decode, decoded] at ok
        cases ok
      · next start failed =>
        rw [decode, decoded, Nat.zero_add] at failed
        cases failed
        by_cases empty : within stop text = []
        · rw [empty, encode_nil, List.length_nil, least empty, empty]
          rfl
        · have some := List.length_pos_iff.mpr (encode_ne_nil empty)
          have again := decode_encode (within stop text) 0
          rw [← take_within] at again
          rw [decodeBelow, if_neg (by omega)]
          split
          · next fragment ok =>
            rw [decode, again] at ok
            cases ok
            rfl
          · next start failed =>
            rw [decode, again] at failed
            cases failed

theorem dropUntilFits_of_le {tokenLimit : Nat} {suffix backwards : Text}
    (fits : estimateTokens (backwards.reverse ++ suffix) ≤ tokenLimit) :
    dropUntilFits tokenLimit suffix backwards = .ok (backwards.reverse ++ suffix) := by
  cases backwards with
  | nil | cons => exact if_pos (.inr fits)

/-- A text that does not fit is cut where its prefix and the suffix fill the budget. -/
theorem truncateText_cut {text suffix : Text} {tokenLimit : Nat} (positive : 0 < tokenLimit)
    (long : tokenLimit < estimateTokens text) :
    truncateText text tokenLimit suffix = .ok (within (tokenLimit * 3 - byteLength
          (if tokenLimit * 3 < byteLength suffix then [] else suffix)) text ++
        if tokenLimit * 3 < byteLength suffix then [] else suffix) := by
  rw [truncateText, if_neg (by omega), if_neg (by omega), if_neg (by omega)]
  simp only [Int.toNat_natCast, length_encode]
  generalize bytes : (if tokenLimit * 3 < byteLength suffix then [] else suffix) = ending
  have fits : byteLength ending ≤ tokenLimit * 3 := by
    rw [← bytes]
    split
    · exact Nat.zero_le _
    · omega
  rw [← length_encode text, decodeBelow_encode (Nat.min_le_left _ _), within_min]
  simp only
  have kept := length_within (tokenLimit * 3 - byteLength ending) text
  rw [length_encode] at kept
  have small : estimateTokens
      ((within (tokenLimit * 3 - byteLength ending) text).reverse.reverse ++ ending) ≤
        tokenLimit := by
    refine estimateTokens_le positive ?_
    rw [List.reverse_reverse, byteLength_append]
    omega
  have result := dropUntilFits_of_le small
  rw [List.reverse_reverse] at result
  exact result

theorem truncateText_within {text : Text} (suffix : Text) {tokenLimit : Nat}
    (positive : 0 < tokenLimit) (long : tokenLimit < estimateTokens text) :
    ∃ result kept, truncateText text tokenLimit suffix = .ok result ∧
      estimateTokens result ≤ tokenLimit ∧ kept <+: text ∧
      result = kept ++ if tokenLimit * 3 < byteLength suffix then [] else suffix := by
  refine ⟨_, _, truncateText_cut positive long, ?_, within_prefix _ text, rfl⟩
  have kept := length_within (tokenLimit * 3 - byteLength
    (if tokenLimit * 3 < byteLength suffix then [] else suffix)) text
  rw [length_encode] at kept
  refine estimateTokens_le positive ?_
  rw [byteLength_append]
  by_cases big : tokenLimit * 3 < byteLength suffix
  · rw [if_pos big] at kept ⊢
    exact kept
  · rw [if_neg big] at kept ⊢
    omega

/-- One round of the loop takes what stands whole within the bytes. -/
theorem splitRemaining_step {maxBytes : Nat} {text behind : Text} (some : text ≠ [])
    (whole : within maxBytes text ++ behind = text) :
    splitRemaining maxBytes (encode text) =
      if within maxBytes text = [] then
        .error (.valueError "could not split UTF-8 summarization input")
      else (splitRemaining maxBytes (encode behind)).map (within maxBytes text :: ·) := by
  have rest : (encode text).drop (encode (within maxBytes text)).length = encode behind := by
    conv_lhs => rw [← whole, encode_append, whole]
    exact List.drop_left
  have zero : (encode (within maxBytes text)).length = 0 ↔ within maxBytes text = [] := by
    rw [List.length_eq_zero_iff]
    refine ⟨fun none => ?_, fun none => by rw [none]; rfl⟩
    by_contra other
    exact encode_ne_nil other none
  rw [splitRemaining, if_neg (encode_ne_nil some), decodeBelow_encode (Nat.min_le_left _ _),
    within_min]
  simp only [zero, rest]

theorem shorter_behind {text first behind : Text} (whole : first ++ behind = text)
    (some : first ≠ []) : behind.length < text.length := by
  have positive := List.length_pos_iff.mpr some
  rw [← whole, List.length_append]
  omega

/-- The fragments of a text whose characters all fit. -/
theorem splitRemaining_ok {maxBytes : Nat} {text : Text}
    (fits : ∀ c ∈ text, c.utf8Size ≤ maxBytes) :
    ∃ fragments, splitRemaining maxBytes (encode text) = .ok fragments ∧ fragments.flatten = text ∧
      ∀ fragment ∈ fragments, fragment ≠ [] ∧ byteLength fragment ≤ maxBytes := by
  induction measured : text.length using Nat.strong_induction_on generalizing text with
  | _ size ih =>
    by_cases empty : text = []
    · refine ⟨[], ?_, empty.symm, nofun⟩
      rw [splitRemaining, if_pos (by rw [empty]; rfl)]
    · obtain ⟨behind, whole⟩ := within_prefix maxBytes text
      have first := within_ne_nil empty fits
      have shorter := measured ▸ shorter_behind whole first
      obtain ⟨fragments, ok, joined, each⟩ := ih _ shorter
        (fun c member => fits c (whole ▸ List.mem_append_right _ member)) rfl
      refine ⟨within maxBytes text :: fragments, ?_, ?_, ?_⟩
      · rw [splitRemaining_step empty whole, if_neg first, ok]
        rfl
      · rw [List.flatten_cons, joined, whole]
      · refine List.forall_mem_cons.mpr ⟨⟨first, ?_⟩, each⟩
        rw [← length_encode]
        exact length_within maxBytes text

/-- A character wider than the limit stops the split. -/
theorem splitRemaining_wide {maxBytes : Nat} {text : Text} {c : Char} (member : c ∈ text)
    (wide : maxBytes < c.utf8Size) :
    splitRemaining maxBytes (encode text) =
      .error (.valueError "could not split UTF-8 summarization input") := by
  induction measured : text.length using Nat.strong_induction_on generalizing text with
  | _ size ih =>
    obtain ⟨behind, whole⟩ := within_prefix maxBytes text
    rw [splitRemaining_step (List.ne_nil_of_mem member) whole]
    by_cases none : within maxBytes text = []
    · rw [if_pos none]
    · have later : c ∈ behind := by
        rw [← whole] at member
        rcases List.mem_append.mp member with early | late
        · exact absurd (utf8Size_within early) (Nat.not_le_of_lt wide)
        · exact late
      have shorter := measured ▸ shorter_behind whole none
      rw [if_neg none, ih _ shorter later rfl]
      rfl

/-- What a text is cut down to, and what it is cut into. -/
theorem text_cuts :
    (∀ (text suffix : Text) (tokenLimit : Int), 0 ≤ tokenLimit →
      ∃ result, truncateText text tokenLimit suffix = .ok result ∧
        estimateTokens result ≤ tokenLimit ∧
        if estimateTokens text ≤ tokenLimit then result = text
        else ∃ kept, kept <+: text ∧
          result = kept ++ if tokenLimit * 3 < byteLength suffix then [] else suffix) ∧
    ∀ (text : Text) (tokenLimit : Int), 1 ≤ tokenLimit →
      if tokenLimit = 1 ∧ ∃ c ∈ text, c.utf8Size = 4 then
        splitTextToTokenLimit text tokenLimit =
          .error (.valueError "could not split UTF-8 summarization input")
      else ∃ fragments, splitTextToTokenLimit text tokenLimit = .ok fragments ∧
        fragments.flatten = text ∧
        ∀ fragment ∈ fragments, fragment ≠ [] ∧ estimateTokens fragment ≤ tokenLimit := by
  constructor
  · intro text suffix tokenLimit nonneg
    obtain ⟨limit, rfl⟩ := Int.eq_ofNat_of_zero_le nonneg
    by_cases fits : estimateTokens text ≤ limit
    · refine ⟨text, ?_, by omega, ?_⟩
      · rw [truncateText, if_neg (by omega), if_pos (by omega)]
      · rw [if_pos (by omega)]
    · by_cases zero : limit = 0
      · refine ⟨[], ?_, nonneg, ?_⟩
        · rw [truncateText, if_neg (by omega), if_neg (by omega), if_pos (by omega)]
        · rw [if_neg (by omega)]
          refine ⟨[], List.nil_prefix, ?_⟩
          split
          · rfl
          · next bytes =>
            cases suffix with
            | nil => rfl
            | cons c rest =>
              have := byteLength_pos (List.cons_ne_nil c rest)
              omega
      · obtain ⟨result, kept, cut, small, cutFrom, whole⟩ :=
          truncateText_within suffix (Nat.pos_of_ne_zero zero) (Nat.lt_of_not_le fits)
        refine ⟨result, cut, by omega, ?_⟩
        rw [if_neg (by omega)]
        refine ⟨kept, cutFrom, whole.trans (congrArg (kept ++ ·) ?_)⟩
        exact if_congr (by omega) rfl rfl
  · intro text tokenLimit positive
    have nonneg : 0 ≤ tokenLimit := by omega
    obtain ⟨limit, rfl⟩ := Int.eq_ofNat_of_zero_le nonneg
    have loop : splitTextToTokenLimit text limit = splitRemaining (limit * 3) (encode text) :=
      if_neg (by omega)
    rw [loop]
    split
    · next wide =>
      obtain ⟨one, c, member, four⟩ := wide
      exact splitRemaining_wide member (by omega)
    · next narrow =>
      have fits : ∀ c ∈ text, c.utf8Size ≤ limit * 3 := by
        intro c member
        have four := c.utf8Size_le_four
        by_contra over'
        exact narrow ⟨by omega, c, member, by omega⟩
      obtain ⟨fragments, ok, joined, each⟩ := splitRemaining_ok fits
      refine ⟨fragments, ok, joined, fun fragment member => ⟨(each fragment member).1, ?_⟩⟩
      have small := estimateTokens_le (by omega) (each fragment member).2
      omega

theorem text_cuts_letters :
    (∃ fragments, splitTextToTokenLimit "ab".toList 2 = .ok fragments ∧
      fragments.flatten = "ab".toList) ∧
    ∃ result, truncateText "абвгд".toList 2 "...".toList = .ok result := by
  constructor
  · have split := text_cuts.2 "ab".toList 2 (by decide)
    rw [if_neg fun wide => absurd wide.1 (by decide)] at split
    obtain ⟨fragments, ok, joined, _⟩ := split
    exact ⟨fragments, ok, joined⟩
  · obtain ⟨result, ok, _⟩ := text_cuts.1 "абвгд".toList "...".toList 2 (by decide)
    exact ⟨result, ok⟩

/-- A character of four bytes cannot be split into fragments of one token. -/
theorem split_stops :
    ¬∀ (text : Text) (tokenLimit : Int), 1 ≤ tokenLimit →
      ∃ fragments, splitTextToTokenLimit text tokenLimit = .ok fragments ∧
        fragments.flatten = text ∧
        ∀ fragment ∈ fragments, fragment ≠ [] ∧ estimateTokens fragment ≤ tokenLimit := by
  intro all
  have four : ('😀').utf8Size = 4 := by decide
  obtain ⟨fragments, ok, _⟩ := all ['😀'] 1 (by decide)
  have stopped : splitTextToTokenLimit ['😀'] 1 =
      .error (.valueError "could not split UTF-8 summarization input") :=
    splitRemaining_wide List.mem_cons_self (by rw [four]; decide)
  rw [stopped] at ok
  cases ok

end BobbyBotique.Context
