import Mathlib.Data.List.Basic

/-!
# Cuts of UTF-8 text

A strict decoder reads one character after the other and, where none begins, fails
with the place it has come to.  Bytes of an encoded text that are cut inside a
character fail at the start of that character.
-/

namespace BobbyBotique.Utf8

def encode (text : List Char) : List UInt8 := text.flatMap String.utf8EncodeChar

/-- The character that the bytes begin with. -/
def decodeChar? (bytes : List UInt8) : Option Char := bytes.toByteArray.utf8DecodeChar? 0

/-- Strict decoding of bytes that stand at `start`. -/
def decodeFrom (start : Nat) : List UInt8 → Except Nat (List Char)
  | [] => .ok []
  | byte :: rest =>
    match decodeChar? (byte :: rest) with
    | none => .error start
    | some c => (decodeFrom (start + c.utf8Size) (rest.drop (c.utf8Size - 1))).map (c :: ·)
termination_by bytes => bytes.length

def decode (bytes : List UInt8) : Except Nat (List Char) := decodeFrom 0 bytes

/-- The longest prefix whose encoding has at most so many bytes. -/
def within : Nat → List Char → List Char
  | _, [] => []
  | size, c :: rest =>
    if c.utf8Size ≤ size then c :: within (size - c.utf8Size) rest else []

theorem encode_cons (c : Char) (rest : List Char) :
    encode (c :: rest) = String.utf8EncodeChar c ++ encode rest := List.flatMap_cons

theorem encode_append (first second : List Char) :
    encode (first ++ second) = encode first ++ encode second := List.flatMap_append

@[simp] theorem encode_nil : encode [] = [] := rfl

theorem encode_ne_nil {text : List Char} (some : text ≠ []) : encode text ≠ [] := by
  cases text with
  | nil => exact absurd rfl some
  | cons c rest =>
    intro empty
    have size := c.utf8Size_pos
    have long := congrArg List.length empty
    rw [encode_cons, List.length_append, String.length_utf8EncodeChar] at long
    simp at long
    omega

/-! ## One character -/

theorem decodeChar?_encode (c : Char) (rest : List UInt8) :
    decodeChar? (String.utf8EncodeChar c ++ rest) = some c := by
  rw [decodeChar?, List.toByteArray_append]
  exact ByteArray.utf8DecodeChar?_utf8EncodeChar_append

theorem decodeChar?_eq_some {bytes : List UInt8} {c : Char} (decoded : decodeChar? bytes = some c) :
    ∃ rest, bytes = String.utf8EncodeChar c ++ rest := by
  obtain ⟨rest, whole⟩ := ByteArray.exists_of_utf8DecodeChar?_eq_some decoded
  refine ⟨rest.data.toList, ?_⟩
  have data := congrArg (fun array => array.data.toList) whole
  simpa using data

/-- No character begins where the bytes of one are cut. -/
theorem decodeChar?_cut {c : Char} {size : Nat} (cut : size < c.utf8Size) :
    decodeChar? ((String.utf8EncodeChar c).take size) = none := by
  by_contra decoded
  obtain ⟨other, found⟩ := Option.ne_none_iff_exists'.mp decoded
  obtain ⟨rest, whole⟩ := decodeChar?_eq_some found
  have long := decodeChar?_encode other (rest ++ (String.utf8EncodeChar c).drop size)
  rw [← List.append_assoc, ← whole, List.take_append_drop] at long
  have same := decodeChar?_encode c []
  rw [List.append_nil, long] at same
  cases Option.some.inj same
  have short := congrArg List.length whole
  rw [List.length_take, List.length_append, String.length_utf8EncodeChar] at short
  omega

/-! ## Texts -/

theorem decodeFrom_cons {start : Nat} {c : Char} {rest : List UInt8} :
    decodeFrom start (String.utf8EncodeChar c ++ rest) =
      (decodeFrom (start + c.utf8Size) rest).map (c :: ·) := by
  have size := c.utf8Size_pos
  have long := String.length_utf8EncodeChar c
  have decoded := decodeChar?_encode c rest
  cases bytes : String.utf8EncodeChar c with
  | nil =>
    rw [bytes] at long
    simp at long
    omega
  | cons byte more =>
    rw [bytes, List.cons_append] at decoded
    rw [bytes, List.length_cons] at long
    rw [List.cons_append, decodeFrom, decoded]
    simp only
    rw [List.drop_append_of_le_length (by omega), List.drop_of_length_le (by omega),
      List.nil_append]

theorem decodeFrom_stuck {start : Nat} {bytes : List UInt8} (some : bytes ≠ [])
    (stuck : decodeChar? bytes = none) : decodeFrom start bytes = .error start := by
  cases bytes with
  | nil => exact absurd rfl some
  | cons byte rest => rw [decodeFrom, stuck]

theorem decode_error_lt {start place : Nat} {bytes : List UInt8}
    (failed : decodeFrom start bytes = .error place) :
    start ≤ place ∧ place < start + bytes.length := by
  induction start, bytes using decodeFrom.induct generalizing place with
  | case1 start => rw [decodeFrom] at failed; cases failed
  | case2 start byte rest stuck =>
    rw [decodeFrom_stuck (List.cons_ne_nil byte rest) stuck] at failed
    cases failed
    rw [List.length_cons]
    omega
  | case3 start byte rest c decoded ih =>
    obtain ⟨more, whole⟩ := decodeChar?_eq_some decoded
    have long := congrArg List.length whole
    rw [List.length_cons, List.length_append, String.length_utf8EncodeChar] at long
    have size := c.utf8Size_pos
    cases later : decodeFrom (start + c.utf8Size) (rest.drop (c.utf8Size - 1)) with
    | ok text =>
      rw [decodeFrom, decoded] at failed
      simp only [later] at failed
      cases failed
    | error place' =>
      rw [decodeFrom, decoded] at failed
      simp only [later] at failed
      cases failed
      obtain ⟨least, most⟩ := ih later
      rw [List.length_drop] at most
      rw [List.length_cons]
      omega

theorem decode_encode (text : List Char) (start : Nat) :
    decodeFrom start (encode text) = .ok text := by
  induction text generalizing start with
  | nil => rw [encode_nil, decodeFrom]
  | cons c rest ih => rw [encode_cons, decodeFrom_cons, ih]; rfl

/-! ## Cuts -/

theorem within_prefix (size : Nat) (text : List Char) : within size text <+: text := by
  induction text generalizing size with
  | nil => exact List.nil_prefix
  | cons c rest ih =>
    rw [within]
    split
    · exact List.cons_prefix_cons.mpr ⟨rfl, ih _⟩
    · exact List.nil_prefix

theorem length_within (size : Nat) (text : List Char) :
    (encode (within size text)).length ≤ size := by
  induction text generalizing size with
  | nil => exact Nat.zero_le _
  | cons c rest ih =>
    rw [within]
    split
    · next fits =>
      have later := ih (size - c.utf8Size)
      rw [encode_cons, List.length_append, String.length_utf8EncodeChar]
      omega
    · exact Nat.zero_le _

theorem within_all {size : Nat} {text : List Char} (fits : (encode text).length ≤ size) :
    within size text = text := by
  induction text generalizing size with
  | nil => rfl
  | cons c rest ih =>
    rw [encode_cons, List.length_append, String.length_utf8EncodeChar] at fits
    rw [within, if_pos (by omega), ih (by omega)]

theorem within_min (size : Nat) (text : List Char) :
    within (min (encode text).length size) text = within size text := by
  by_cases short : (encode text).length ≤ size
  · rw [Nat.min_eq_left short, within_all (Nat.le_refl _), within_all short]
  · rw [Nat.min_eq_right (Nat.le_of_not_le short)]

theorem within_ne_nil {size : Nat} {text : List Char} (some : text ≠ [])
    (fits : ∀ c ∈ text, c.utf8Size ≤ size) : within size text ≠ [] := by
  cases text with
  | nil => exact absurd rfl some
  | cons c rest =>
    rw [within, if_pos (fits c List.mem_cons_self)]
    exact List.cons_ne_nil _ _

/-- A character that is wider than the bytes stays behind. -/
theorem utf8Size_within {size : Nat} {text : List Char} {c : Char}
    (member : c ∈ within size text) : c.utf8Size ≤ size := by
  induction text generalizing size with
  | nil => cases member
  | cons first rest ih =>
    rw [within] at member
    split at member
    · next fits =>
      rcases List.mem_cons.mp member with rfl | later
      · exact fits
      · exact Nat.le_trans (ih later) (Nat.sub_le _ _)
    · cases member

/-- The bytes of a prefix are a prefix of the bytes. -/
theorem take_within (size : Nat) (text : List Char) :
    (encode text).take (encode (within size text)).length = encode (within size text) := by
  obtain ⟨behind, whole⟩ := within_prefix size text
  have bytes : encode text = encode (within size text) ++ encode behind := by
    rw [← encode_append, whole]
  rw [bytes]
  exact List.take_left

/-- Bytes that are cut decode to what stands whole within them, or fail behind it. -/
theorem decode_take (text : List Char) (size start : Nat) :
    decodeFrom start ((encode text).take size) =
      if (encode (within size text)).length = min size (encode text).length then
        .ok (within size text)
      else .error (start + (encode (within size text)).length) := by
  induction text generalizing size start with
  | nil => simp [decodeFrom, within]
  | cons c rest ih =>
    have positive := c.utf8Size_pos
    have long := String.length_utf8EncodeChar c
    rw [encode_cons, List.length_append, long]
    by_cases fits : c.utf8Size ≤ size
    · have taken : (String.utf8EncodeChar c ++ encode rest).take size =
          String.utf8EncodeChar c ++ (encode rest).take (size - c.utf8Size) := by
        rw [List.take_append, List.take_of_length_le (by omega), long]
      rw [within, if_pos fits, encode_cons, List.length_append, long, taken, decodeFrom_cons, ih]
      by_cases whole : (encode (within (size - c.utf8Size) rest)).length =
          min (size - c.utf8Size) (encode rest).length
      · rw [if_pos whole, if_pos (by omega)]
        rfl
      · rw [if_neg whole, if_neg (by omega), Nat.add_assoc]
        rfl
    · rw [within, if_neg fits, encode_nil, List.length_nil,
        List.take_append_of_le_length (by omega), Nat.add_zero]
      by_cases none : size = 0
      · rw [none, List.take_zero, Nat.zero_min, if_pos rfl, decodeFrom]
      · rw [if_neg (by omega)]
        refine decodeFrom_stuck ?_ (decodeChar?_cut (Nat.lt_of_not_le fits))
        intro empty
        have short := congrArg List.length empty
        rw [List.length_take, List.length_nil] at short
        omega

end BobbyBotique.Utf8
