/-!
# Optimal string alignment

The distance of two words by insertion, deletion, substitution and the exchange of two
neighbours, given by its recursion on the lengths of the prefixes.
-/

namespace BobbyBotique.Alignment

variable {A : Type} [DecidableEq A]

/-- What it costs to put the letter at one place for the letter at another. -/
def cost (left right : List A) (row column : Nat) : Nat :=
  if left[row]? = right[column]? then 0 else 1

/-- The letters at two places and the letters before them are exchanged. -/
def Swapped (left right : List A) (row column : Nat) : Prop :=
  0 < row ∧ 0 < column ∧ left[row]? = right[column - 1]? ∧ left[row - 1]? = right[column]?

instance (left right : List A) (row column : Nat) : Decidable (Swapped left right row column) :=
  inferInstanceAs (Decidable (_ ∧ _ ∧ _ ∧ _))

/-- The distance of the first `row` letters from the first `column` letters. -/
def prefixDistance (left right : List A) : Nat → Nat → Nat
  | 0, column => column
  | row + 1, 0 => row + 1
  | row + 1, column + 1 =>
    let edited := min (min (prefixDistance left right row (column + 1) + 1)
      (prefixDistance left right (row + 1) column + 1))
      (prefixDistance left right row column + cost left right row column)
    if Swapped left right row column then
      min edited (prefixDistance left right (row - 1) (column - 1) + 1)
    else edited
termination_by row column => row + column

def distance (left right : List A) : Nat := prefixDistance left right left.length right.length

variable (left right : List A)

@[simp] theorem prefixDistance_zero (column : Nat) :
    prefixDistance left right 0 column = column := by
  rw [prefixDistance]

@[simp] theorem prefixDistance_empty (row : Nat) : prefixDistance left right row 0 = row := by
  cases row <;> rw [prefixDistance]

/-- The three edits at the end of two prefixes. -/
def edited (row column : Nat) : Nat :=
  min (min (prefixDistance left right row (column + 1) + 1)
    (prefixDistance left right (row + 1) column + 1))
    (prefixDistance left right row column + cost left right row column)

theorem prefixDistance_succ (row column : Nat) :
    prefixDistance left right (row + 1) (column + 1) =
      if Swapped left right row column then
        min (edited left right row column)
          (prefixDistance left right (row - 1) (column - 1) + 1)
      else edited left right row column := by
  rw [prefixDistance]
  rfl

theorem prefixDistance_le_edited (row column : Nat) :
    prefixDistance left right (row + 1) (column + 1) ≤ edited left right row column := by
  rw [prefixDistance_succ]
  split
  · exact Nat.min_le_left ..
  · exact Nat.le_refl _

theorem edited_le_substituted (row column : Nat) :
    edited left right row column ≤
      prefixDistance left right row column + cost left right row column :=
  Nat.min_le_right ..

/-- An exchange may cost what a substitution costs: it is free only where both letters of
one word are both letters of the other. -/
theorem swap_cost {row column : Nat} (swapped : Swapped left right row column) :
    min (edited left right row column)
        (prefixDistance left right (row - 1) (column - 1) + cost left right row column) =
      prefixDistance left right (row + 1) (column + 1) := by
  rw [prefixDistance_succ, if_pos swapped]
  by_cases same : left[row]? = right[column]?
  · obtain ⟨below, beside, cross, back⟩ := swapped
    obtain ⟨row, rfl⟩ := Nat.exists_eq_succ_of_ne_zero (Nat.ne_of_gt below)
    obtain ⟨column, rfl⟩ := Nat.exists_eq_succ_of_ne_zero (Nat.ne_of_gt beside)
    have free : cost left right (row + 1) (column + 1) = 0 := if_pos same
    have before : cost left right row column = 0 := if_pos (back.trans (same.symm.trans cross))
    have last := edited_le_substituted left right (row + 1) (column + 1)
    have first := Nat.le_trans (prefixDistance_le_edited left right row column)
      (edited_le_substituted left right row column)
    simp only [Nat.succ_eq_add_one, Nat.add_sub_cancel]
    omega
  · have paid : cost left right row column = 1 := if_neg same
    rw [paid]

/-! ## Symmetry -/

theorem cost_comm (row column : Nat) : cost left right row column = cost right left column row := by
  unfold cost
  simp only [eq_comm]

omit [DecidableEq A] in
theorem swapped_comm (row column : Nat) :
    Swapped left right row column ↔ Swapped right left column row :=
  ⟨fun ⟨below, beside, cross, back⟩ => ⟨beside, below, back.symm, cross.symm⟩,
    fun ⟨below, beside, cross, back⟩ => ⟨beside, below, back.symm, cross.symm⟩⟩

theorem prefixDistance_comm (row column : Nat) :
    prefixDistance left right row column = prefixDistance right left column row := by
  generalize size : row + column = bound
  induction bound using Nat.strongRecOn generalizing row column with
  | ind bound ih =>
    cases row with
    | zero => rw [prefixDistance_zero, prefixDistance_empty]
    | succ row =>
      cases column with
      | zero => rw [prefixDistance_zero, prefixDistance_empty]
      | succ column =>
        have up := ih _ (by omega) row (column + 1) rfl
        have aside := ih _ (by omega) (row + 1) column rfl
        have corner := ih _ (by omega) row column rfl
        have back := ih _ (by omega) (row - 1) (column - 1) rfl
        have same : edited left right row column = edited right left column row := by
          unfold edited
          rw [up, aside, corner, cost_comm, Nat.min_comm (_ + 1)]
        rw [prefixDistance_succ, prefixDistance_succ, same, back]
        simp only [swapped_comm left right row column]

theorem distance_comm : distance left right = distance right left :=
  prefixDistance_comm left right _ _

/-! ## Distance zero -/

theorem prefixDistance_self (row : Nat) : prefixDistance left left row row = 0 := by
  induction row with
  | zero => exact prefixDistance_zero ..
  | succ row ih =>
    have bound := Nat.le_trans (prefixDistance_le_edited left left row row)
      (edited_le_substituted left left row row)
    have free : cost left left row row = 0 := if_pos rfl
    omega

/-- Prefixes at distance zero are of one length and letter by letter the same. -/
theorem prefixDistance_eq_zero {row column : Nat}
    (zero : prefixDistance left right row column = 0) :
    row = column ∧ ∀ place, place < row → left[place]? = right[place]? := by
  induction row generalizing column with
  | zero =>
    rw [prefixDistance_zero] at zero
    exact ⟨zero.symm, fun _ absurd => (Nat.not_lt_zero _ absurd).elim⟩
  | succ row ih =>
    cases column with
    | zero =>
      rw [prefixDistance_empty] at zero
      cases zero
    | succ column =>
      have plain : prefixDistance left right row column + cost left right row column = 0 := by
        rw [prefixDistance_succ] at zero
        unfold edited at zero
        split at zero <;> omega
      obtain ⟨rfl, same⟩ := ih (Nat.add_eq_zero_iff.mp plain).1
      refine ⟨rfl, fun place below => ?_⟩
      rcases Nat.lt_succ_iff_lt_or_eq.mp below with inside | rfl
      · exact same place inside
      · refine Decidable.byContradiction fun other => ?_
        have paid : cost left right place place = 1 := if_neg other
        omega

theorem distance_eq_zero_iff : distance left right = 0 ↔ left = right := by
  constructor
  · intro zero
    obtain ⟨lengths, same⟩ := prefixDistance_eq_zero left right zero
    refine List.ext_getElem? fun place => ?_
    rcases Nat.lt_or_ge place left.length with inside | outside
    · exact same place inside
    · rw [List.getElem?_eq_none outside, List.getElem?_eq_none (lengths ▸ outside)]
  · rintro rfl
    exact prefixDistance_self left _

end BobbyBotique.Alignment
