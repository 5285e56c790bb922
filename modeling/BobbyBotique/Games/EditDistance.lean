import BobbyBotique.Foundation.Alignment

/-!
# Edit distance in three rows

`_damerau_levenshtein` of the trivia and of the Crocodile judge: two loops over three row
buffers that change places after each row, with what the old rows left in them.
-/

namespace BobbyBotique.Games

open Alignment

abbrev Word := List Char

/-- The three buffers of the loops. -/
structure Rows where
  previousPrevious : List Nat
  previous : List Nat
  current : List Nat

section

variable (left right : Word)

/-- `current[column]` behind the body of the inner loop. -/
def cell (rows : Rows) (row column : Nat) : Nat :=
  let leftChar := left[row - 1]?
  let rightChar := right[column - 1]?
  let cost := if leftChar = rightChar then 0 else 1
  let edited := min (min (rows.previous.getD column 0 + 1) (rows.current.getD (column - 1) 0 + 1))
    (rows.previous.getD (column - 1) 0 + cost)
  if 1 < row ∧ 1 < column ∧ leftChar = right[column - 2]? ∧ left[row - 2]? = rightChar then
    min edited (rows.previousPrevious.getD (column - 2) 0 + cost)
  else edited

def columnStep (row : Nat) (rows : Rows) (column : Nat) : Rows :=
  { rows with current := rows.current.set column (cell left right rows row column) }

/-- One turn of the outer loop: the row is filled, and the buffers change places. -/
def rowStep (rows : Rows) (row : Nat) : Rows :=
  let filled := (List.range' 1 right.length).foldl (columnStep left right row)
    { rows with current := rows.current.set 0 row }
  ⟨filled.previous, filled.current, filled.previousPrevious⟩

/-- The buffers before the first row. -/
def startRows : Rows where
  previousPrevious := List.replicate (right.length + 1) 0
  previous := List.range (right.length + 1)
  current := List.replicate (right.length + 1) 0

def rollingDistance : Nat :=
  if right.length = 0 then left.length
  else if left.length = 0 then right.length
  else
    ((List.range' 1 left.length).foldl (rowStep left right) (startRows right)).previous.getD
      right.length 0

end

/-- `trivia_similarity._damerau_levenshtein`. -/
def TriviaSimilarity.damerauLevenshtein (left right : Word) : Nat := rollingDistance left right

/-- `judge._damerau_levenshtein`. -/
def Judge.damerauLevenshtein (s t : Word) : Nat := rollingDistance s t

section

variable {left right : Word}

/-- A buffer holds the first `count` distances of a row. -/
def Holds (left right : Word) (buffer : List Nat) (row count : Nat) : Prop :=
  ∀ column, column < count → buffer.getD column 0 = prefixDistance left right row column

theorem Holds.more {buffer : List Nat} {row count : Nat} (holds : Holds left right buffer row count)
    (inside : count < buffer.length) {value : Nat}
    (right_value : value = prefixDistance left right row count) :
    Holds left right (buffer.set count value) row (count + 1) := by
  intro column below
  rcases Nat.lt_succ_iff_lt_or_eq.mp below with before | rfl
  · rw [List.getD_eq_getElem?_getD, List.getElem?_set_ne (Nat.ne_of_gt before),
      ← List.getD_eq_getElem?_getD]
    exact holds column before
  · rw [List.getD_eq_getElem?_getD, List.getElem?_set_self inside]
    exact right_value

/-- The rows above are filled, each to its end; nothing is asked of the stale cells. -/
structure Above (left right : Word) (rows : Rows) (row : Nat) : Prop where
  previous : Holds left right rows.previous row (right.length + 1)
  earlier : 0 < row → Holds left right rows.previousPrevious (row - 1) (right.length + 1)

theorem cell_eq {rows : Rows} {row column : Nat} (above : Above left right rows row)
    (filled : Holds left right rows.current (row + 1) (column + 1))
    (inside : column + 1 < right.length + 1) :
    cell left right rows (row + 1) (column + 1) =
      prefixDistance left right (row + 1) (column + 1) := by
  have before : column < right.length + 1 := Nat.lt_of_succ_lt inside
  have edits : min (min (rows.previous.getD (column + 1) 0 + 1) (rows.current.getD column 0 + 1))
      (rows.previous.getD column 0 + cost left right row column) =
        edited left right row column := by
    rw [above.previous _ inside, above.previous _ before, filled _ (Nat.lt_succ_self _)]
    rfl
  unfold cell
  simp only [Nat.add_sub_cancel]
  change (if _ then min (min (min _ _) (_ + cost left right row column))
    (_ + cost left right row column) else min (min _ _) (_ + cost left right row column)) = _
  rw [edits]
  split
  · next crossed =>
      obtain ⟨below, beside, cross, back⟩ := crossed
      have swapped : Swapped left right row column :=
        ⟨Nat.lt_of_succ_lt_succ below, Nat.lt_of_succ_lt_succ beside, cross, back⟩
      have corner : rows.previousPrevious.getD (column + 1 - 2) 0 =
          prefixDistance left right (row - 1) (column - 1) :=
        above.earlier swapped.1 _ (by omega)
      rw [corner]
      exact swap_cost left right swapped
  · next apart =>
      rw [prefixDistance_succ, if_neg]
      rintro ⟨below, beside, cross, back⟩
      exact apart ⟨Nat.succ_lt_succ below, Nat.succ_lt_succ beside, cross, back⟩

/-- The inner loop fills a row from left to right and leaves the rows above as they are. -/
theorem fill_row {rows : Rows} {row : Nat} (above : Above left right rows row) (count : Nat)
    (inside : count ≤ right.length) (length : rows.current.length = right.length + 1)
    (filled : Holds left right rows.current (row + 1) 1) :
    let after := (List.range' 1 count).foldl (columnStep left right (row + 1)) rows
    after.previous = rows.previous ∧ after.previousPrevious = rows.previousPrevious ∧
      after.current.length = right.length + 1 ∧
      Holds left right after.current (row + 1) (count + 1) := by
  induction count with
  | zero => exact ⟨rfl, rfl, length, filled⟩
  | succ count ih =>
    obtain ⟨previous, earlier, size, held⟩ := ih (Nat.le_of_succ_le inside)
    rw [List.range'_1_concat, List.foldl_append]
    generalize (List.range' 1 count).foldl (columnStep left right (row + 1)) rows = after
      at previous earlier size held
    have still : Above left right after row :=
      ⟨previous ▸ above.previous, earlier ▸ above.earlier⟩
    have value := cell_eq still held (Nat.succ_lt_succ inside)
    rw [Nat.add_comm 1 count]
    refine ⟨previous, earlier, (List.length_set ..).trans size, ?_⟩
    exact held.more (size.symm ▸ Nat.succ_lt_succ inside) value

/-- What holds of the buffers between two rows. -/
structure Filled (left right : Word) (rows : Rows) (row : Nat) : Prop
    extends Above left right rows row where
  full : rows.previous.length = right.length + 1
  current : rows.current.length = right.length + 1
  spare : rows.previousPrevious.length = right.length + 1

theorem startRows_filled : Filled left right (startRows right) 0 where
  previous column below := by
    rw [prefixDistance_zero, startRows, List.getD_eq_getElem?_getD, List.getElem?_range below]
    rfl
  earlier absurd := (Nat.lt_irrefl 0 absurd).elim
  full := List.length_range
  current := List.length_replicate
  spare := List.length_replicate

theorem Filled.next {rows : Rows} {row : Nat} (filled : Filled left right rows row) :
    Filled left right (rowStep left right rows (row + 1)) (row + 1) := by
  have first : Holds left right (rows.current.set 0 (row + 1)) (row + 1) 1 :=
    Holds.more (fun _ absurd => (Nat.not_lt_zero _ absurd).elim)
      (filled.current.symm ▸ Nat.succ_pos _) (prefixDistance_empty ..).symm
  obtain ⟨previous, earlier, size, held⟩ := @fill_row left right
    { rows with current := rows.current.set 0 (row + 1) } row
    ⟨filled.previous, filled.earlier⟩ right.length (Nat.le_refl _)
    ((List.length_set ..).trans filled.current) first
  unfold rowStep
  dsimp only
  generalize (List.range' 1 right.length).foldl (columnStep left right (row + 1))
    { rows with current := rows.current.set 0 (row + 1) } = after at previous earlier size held
  exact {
    previous := held
    earlier := fun _ => previous ▸ filled.previous
    full := size
    current := earlier ▸ filled.spare
    spare := previous ▸ filled.full }

theorem rows_filled (count : Nat) : Filled left right
    ((List.range' 1 count).foldl (rowStep left right) (startRows right)) count := by
  induction count with
  | zero => exact startRows_filled
  | succ count ih =>
    rw [List.range'_1_concat, List.foldl_append, Nat.add_comm 1 count]
    exact ih.next

theorem rollingDistance_eq (left right : Word) :
    rollingDistance left right = distance left right := by
  unfold rollingDistance distance
  split
  · next none =>
      rw [none, prefixDistance_empty]
  split
  · next none =>
      rw [none, prefixDistance_zero]
  · exact (rows_filled left.length).previous _ (Nat.lt_succ_self _)

/-- Both edit distances are the optimal string alignment. -/
theorem damerauLevenshtein_is_alignment (left right : Word) :
    TriviaSimilarity.damerauLevenshtein left right = distance left right ∧
      Judge.damerauLevenshtein left right = distance left right ∧
      TriviaSimilarity.damerauLevenshtein left right =
        TriviaSimilarity.damerauLevenshtein right left ∧
      Judge.damerauLevenshtein left right = Judge.damerauLevenshtein right left ∧
      (TriviaSimilarity.damerauLevenshtein left right = 0 ↔ left = right) ∧
      (Judge.damerauLevenshtein left right = 0 ↔ left = right) := by
  have both : ∀ left right, rollingDistance left right = distance left right :=
    rollingDistance_eq
  unfold TriviaSimilarity.damerauLevenshtein Judge.damerauLevenshtein
  simp only [both]
  exact ⟨trivial, trivial, distance_comm left right, distance_comm left right,
    distance_eq_zero_iff left right, distance_eq_zero_iff left right⟩

end

example : rollingDistance "abcd".toList "acbd".toList = 1 := by decide

end BobbyBotique.Games
