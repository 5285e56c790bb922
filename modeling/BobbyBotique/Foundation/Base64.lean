import Mathlib.Data.List.Basic

/-!
# Base64

The encoder, and the strict decoder as a machine that takes one letter at a time.
-/

namespace BobbyBotique.Base64

/-- The letter of six bits. -/
def letter (n : Nat) : Char :=
  if n < 26 then Char.ofNat (65 + n)
  else if n < 52 then Char.ofNat (71 + n)
  else if n < 62 then Char.ofNat (n - 4)
  else if n = 62 then '+'
  else '/'

def sixBits (c : Char) : Option Nat :=
  if 'A' ≤ c ∧ c ≤ 'Z' then some (c.toNat - 65)
  else if 'a' ≤ c ∧ c ≤ 'z' then some (c.toNat - 71)
  else if '0' ≤ c ∧ c ≤ '9' then some (c.toNat + 4)
  else if c = '+' then some 62
  else if c = '/' then some 63
  else none

def b64encode : List UInt8 → List Char
  | [] => []
  | [a] => [letter (a.toNat / 4), letter (a.toNat % 4 * 16), '=', '=']
  | [a, b] =>
    [letter (a.toNat / 4), letter (a.toNat % 4 * 16 + b.toNat / 16), letter (b.toNat % 16 * 4), '=']
  | a :: b :: c :: rest =>
    letter (a.toNat / 4) :: letter (a.toNat % 4 * 16 + b.toNat / 16) ::
      letter (b.toNat % 16 * 4 + c.toNat / 64) :: letter (c.toNat % 64) :: b64encode rest

/-- `binascii.a2b_base64` with `strict_mode`: the place in the group of four, the bits
left over, the padding in a row, and whether padding was seen. -/
def a2b (place left pads : Nat) (padded : Bool) : List Char → Option (List UInt8)
  | [] => if place = 0 then some [] else none
  | c :: rest =>
    if c = '=' then
      if place = 0 then none
      else if 2 ≤ place then
        if 4 ≤ place + (pads + 1) then if rest = [] then some [] else none
        else a2b place left (pads + 1) true rest
      else a2b place left pads true rest
    else
      match sixBits c with
      | none => none
      | some bits =>
        if padded then none
        else
          match place with
          | 0 => a2b 1 bits 0 false rest
          | 1 => (a2b 2 (bits % 16) 0 false rest).map (UInt8.ofNat (left * 4 + bits / 16) :: ·)
          | 2 => (a2b 3 (bits % 4) 0 false rest).map (UInt8.ofNat (left * 16 + bits / 4) :: ·)
          | _ => (a2b 0 0 0 false rest).map (UInt8.ofNat (left * 64 + bits) :: ·)

/-- `base64.b64decode` with `validate=True`. -/
def b64decode (text : List Char) : Option (List UInt8) := a2b 0 0 0 false text

theorem sixBits_letter : ∀ n < 64, sixBits (letter n) = some n ∧ letter n ≠ '=' := by
  decide +kernel

section

variable {n left pads : Nat} {rest : List Char}

theorem a2b_first (small : n < 64) : a2b 0 left pads false (letter n :: rest) =
    a2b 1 n 0 false rest := by
  obtain ⟨bits, plain⟩ := sixBits_letter n small
  rw [a2b, if_neg plain, bits]
  rfl

theorem a2b_second (small : n < 64) : a2b 1 left pads false (letter n :: rest) =
    (a2b 2 (n % 16) 0 false rest).map (UInt8.ofNat (left * 4 + n / 16) :: ·) := by
  obtain ⟨bits, plain⟩ := sixBits_letter n small
  rw [a2b, if_neg plain, bits]
  rfl

theorem a2b_third (small : n < 64) : a2b 2 left pads false (letter n :: rest) =
    (a2b 3 (n % 4) 0 false rest).map (UInt8.ofNat (left * 16 + n / 4) :: ·) := by
  obtain ⟨bits, plain⟩ := sixBits_letter n small
  rw [a2b, if_neg plain, bits]
  rfl

theorem a2b_fourth (small : n < 64) : a2b 3 left pads false (letter n :: rest) =
    (a2b 0 0 0 false rest).map (UInt8.ofNat (left * 64 + n) :: ·) := by
  obtain ⟨bits, plain⟩ := sixBits_letter n small
  rw [a2b, if_neg plain, bits]
  rfl

end

theorem byte_eq {a : UInt8} {n : Nat} (same : n = a.toNat) : UInt8.ofNat n = a := by
  rw [same, UInt8.ofNat_toNat]

/-- Decoding undoes encoding. -/
theorem b64decode_b64encode (data : List UInt8) : b64decode (b64encode data) = some data := by
  unfold b64decode
  fun_induction b64encode data with
  | case1 => rfl
  | case2 a =>
    have := a.toNat_lt
    rw [a2b_first (by omega), a2b_second (by omega), byte_eq (a := a) (by omega)]
    rfl
  | case3 a b =>
    have := a.toNat_lt
    have := b.toNat_lt
    rw [a2b_first (by omega), a2b_second (by omega), a2b_third (by omega),
      byte_eq (a := a) (by omega), byte_eq (a := b) (by omega)]
    rfl
  | case4 a b c rest ih =>
    have := a.toNat_lt
    have := b.toNat_lt
    have := c.toNat_lt
    rw [a2b_first (by omega), a2b_second (by omega), a2b_third (by omega),
      a2b_fourth (by omega), ih, byte_eq (a := a) (by omega), byte_eq (a := b) (by omega),
      byte_eq (a := c) (by omega)]
    rfl

theorem letter_ascii (n : Nat) : (letter n).toNat < 128 := by
  by_cases small : n < 64
  · have checked : ∀ n < 64, (letter n).toNat < 128 := by decide +kernel
    exact checked n small
  · have last : letter n = '/' := by
      unfold letter
      rw [if_neg (by omega), if_neg (by omega), if_neg (by omega), if_neg (by omega)]
    rw [last]
    decide

theorem b64encode_ascii (data : List UInt8) : ∀ c ∈ b64encode data, c.toNat < 128 := by
  have padding : '='.toNat < 128 := by decide
  fun_induction b64encode data with
  | case1 => exact fun c absurd => (List.not_mem_nil absurd).elim
  | case2 a =>
    intro c among
    simp only [List.mem_cons, List.not_mem_nil, or_false] at among
    rcases among with rfl | rfl | rfl | rfl
    · exact letter_ascii _
    · exact letter_ascii _
    · exact padding
    · exact padding
  | case3 a b =>
    intro c among
    simp only [List.mem_cons, List.not_mem_nil, or_false] at among
    rcases among with rfl | rfl | rfl | rfl
    · exact letter_ascii _
    · exact letter_ascii _
    · exact letter_ascii _
    · exact padding
  | case4 a b c rest ih =>
    intro letter among
    simp only [List.mem_cons] at among
    rcases among with rfl | rfl | rfl | rfl | later
    · exact letter_ascii _
    · exact letter_ascii _
    · exact letter_ascii _
    · exact letter_ascii _
    · exact ih letter later

end BobbyBotique.Base64
