import Mathlib.Data.List.TakeWhile

/-!
# Lists whose entries have owners

Cutting spans out of a list keeps the rest in its order, whatever the entries
carry with them.  A list whose owners ascend falls into one piece for each
owner.
-/

namespace BobbyBotique

/-- `entries[start:stop]`. -/
def slice {A : Type} (entries : List A) (start stop : Nat) : List A :=
  (entries.take stop).drop start

/-- A span of a list and the span inside it that is kept. -/
structure Cut where
  start : Nat
  stop : Nat
  keptStart : Nat
  keptStop : Nat

namespace Cut

variable {A B : Type}

/-- The cuts lie behind the cursor one after the other, each around what it keeps. -/
def Spaced (length : Nat) : Nat → List Cut → Prop
  | cursor, [] => cursor ≤ length
  | cursor, cut :: rest =>
    cursor ≤ cut.start ∧ cut.start ≤ cut.keptStart ∧ cut.keptStop ≤ cut.stop ∧
      cut.start ≤ cut.stop ∧ Spaced length cut.stop rest

/-- What is left of a list behind the cursor. -/
def keep (entries : List A) : Nat → List Cut → List A
  | cursor, [] => entries.drop cursor
  | cursor, cut :: rest =>
    slice entries cursor cut.start ++ slice entries cut.keptStart cut.keptStop ++
      keep entries cut.stop rest

theorem slice_map (change : A → B) (entries : List A) (start stop : Nat) :
    slice (entries.map change) start stop = (slice entries start stop).map change := by
  rw [slice, slice, ← List.map_take, ← List.map_drop]

theorem keep_map (change : A → B) (entries : List A) (cuts : List Cut) (cursor : Nat) :
    keep (entries.map change) cursor cuts = (keep entries cursor cuts).map change := by
  induction cuts generalizing cursor with
  | nil => rw [keep, keep, List.map_drop]
  | cons cut rest ih => rw [keep, keep, slice_map, slice_map, ih, List.map_append, List.map_append]

/-- A list from a place on is a slice and what stands behind it. -/
theorem slice_append_drop (entries : List A) {start stop : Nat} (ordered : start ≤ stop) :
    slice entries start stop ++ entries.drop stop = entries.drop start := by
  have whole := congrArg (List.drop start) (List.take_append_drop stop entries)
  rcases Nat.le_total stop entries.length with inside | outside
  · have short : start ≤ (entries.take stop).length := by
      rwa [List.length_take, Nat.min_eq_left inside]
    rwa [List.drop_append_of_le_length short] at whole
  · rw [slice, List.take_of_length_le outside, List.drop_eq_nil_of_le outside, List.append_nil]

theorem slice_sublist_slice (entries : List A) {start stop first last : Nat}
    (before : start ≤ first) (behind : last ≤ stop) :
    (slice entries first last).Sublist (slice entries start stop) := by
  rw [slice, slice]
  have early : ((entries.take last).drop first).Sublist ((entries.take last).drop start) :=
    List.drop_sublist_drop_left _ before
  exact early.trans ((List.take_sublist_take_left behind).drop start)

/-- Cutting keeps entries in their order. -/
theorem keep_sublist (entries : List A) {length : Nat} {cuts : List Cut} {cursor : Nat}
    (spaced : Spaced length cursor cuts) :
    (keep entries cursor cuts).Sublist (entries.drop cursor) := by
  induction cuts generalizing cursor with
  | nil => exact .refl _
  | cons cut rest ih =>
    obtain ⟨before, keptStart, keptStop, ordered, later⟩ := spaced
    rw [keep, ← slice_append_drop entries before, ← slice_append_drop entries ordered,
      List.append_assoc]
    exact (List.Sublist.refl _).append
      ((slice_sublist_slice entries keptStart keptStop).append (ih later))

end Cut

/-! ## Pieces by owner -/

section Owners

variable {A : Type}

/-- The entry belongs to the owner. -/
def isOwned (owner : Nat) (entry : A × Nat) : Bool := entry.2 == owner

/-- The entries of one owner. -/
def ownedBy (owned : List (A × Nat)) (owner : Nat) : List (A × Nat) :=
  owned.filter (isOwned owner)

/-- Owners ascend and none is below the first one. -/
def Ascending (first : Nat) (owned : List (A × Nat)) : Prop :=
  owned.Pairwise (fun entry later => entry.2 ≤ later.2) ∧ ∀ entry ∈ owned, first ≤ entry.2

theorem Ascending.sublist {first : Nat} {owned kept : List (A × Nat)}
    (ascending : Ascending first owned) (fewer : kept.Sublist owned) : Ascending first kept :=
  ⟨ascending.1.sublist fewer, fun entry member => ascending.2 entry (fewer.subset member)⟩

/-- The entries of the first owner stand in front of all others. -/
theorem Ascending.front {first : Nat} {owned : List (A × Nat)} (ascending : Ascending first owned) :
    owned.takeWhile (isOwned first) = ownedBy owned first ∧
      Ascending (first + 1) (owned.dropWhile (isOwned first)) := by
  induction owned with
  | nil => exact ⟨rfl, List.Pairwise.nil, fun entry absurd => nomatch absurd⟩
  | cons entry rest ih =>
    obtain ⟨paired, above⟩ := ascending
    obtain ⟨behind, ordered⟩ := List.pairwise_cons.mp paired
    have later : Ascending first rest := ⟨ordered, fun other member =>
      above other (List.mem_cons_of_mem _ member)⟩
    obtain ⟨taken, dropped⟩ := ih later
    by_cases own : entry.2 = first
    · have test : isOwned first entry = true := beq_iff_eq.mpr own
      rw [List.takeWhile_cons_of_pos test, List.dropWhile_cons_of_pos test, ownedBy,
        List.filter_cons_of_pos test, taken]
      exact ⟨rfl, dropped⟩
    · have test : ¬isOwned first entry = true := fun same => own (beq_iff_eq.mp same)
      have past : first < entry.2 :=
        Nat.lt_of_le_of_ne (above entry List.mem_cons_self) fun same => own same.symm
      rw [List.takeWhile_cons_of_neg test, List.dropWhile_cons_of_neg test]
      constructor
      · refine (List.filter_eq_nil_iff.mpr fun other member same => ?_).symm
        have owner := beq_iff_eq.mp same
        rcases List.mem_cons.mp member with rfl | member
        · exact own owner
        · exact absurd past (Nat.not_lt.mpr (owner ▸ behind other member))
      · refine ⟨paired, fun other member => ?_⟩
        rcases List.mem_cons.mp member with rfl | member
        · exact past
        · exact past.trans_le (behind other member)

/-- Behind the entries of the first owner the entries of the others are all there. -/
theorem ownedBy_dropWhile {first owner : Nat} (other : owner ≠ first) (owned : List (A × Nat)) :
    ownedBy (owned.dropWhile (isOwned first)) owner = ownedBy owned owner := by
  have none : ownedBy (owned.takeWhile (isOwned first)) owner = [] := by
    refine List.filter_eq_nil_iff.mpr fun entry member same => ?_
    have own := List.mem_takeWhile_imp member
    exact other ((beq_iff_eq.mp same).symm.trans (beq_iff_eq.mp own))
  have whole := congrArg (fun entries => ownedBy entries owner)
    (List.takeWhile_append_dropWhile (p := isOwned first) (l := owned))
  dsimp only [ownedBy] at whole none ⊢
  rwa [List.filter_append, none, List.nil_append] at whole

/-- The pieces of the owners from the first one on make up the list. -/
theorem Ascending.flatten {first : Nat} (count : Nat) {owned : List (A × Nat)}
    (ascending : Ascending first owned) (below : ∀ entry ∈ owned, entry.2 < first + count) :
    ((List.range' first count).map (ownedBy owned)).flatten = owned := by
  induction count generalizing first owned with
  | zero =>
    cases owned with
    | nil => rfl
    | cons entry rest =>
      have high := below entry List.mem_cons_self
      exact absurd (ascending.2 entry List.mem_cons_self) (Nat.not_le.mpr high)
  | succ count ih =>
    obtain ⟨taken, dropped⟩ := ascending.front
    have rest := ih dropped fun entry member => by
      have := below entry ((List.dropWhile_sublist _).subset member)
      omega
    have pieces : (List.range' (first + 1) count).map (ownedBy owned) =
        (List.range' (first + 1) count).map
          (ownedBy (owned.dropWhile (isOwned first))) := by
      refine List.map_congr_left fun owner member => ?_
      have past := (List.mem_range'_1.mp member).1
      exact (ownedBy_dropWhile (by omega) owned).symm
    rw [List.range'_succ, List.map_cons, List.flatten_cons, pieces, rest, ← taken,
      List.takeWhile_append_dropWhile]

end Owners

end BobbyBotique
